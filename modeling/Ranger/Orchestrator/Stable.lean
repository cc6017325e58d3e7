/-
A tick with nothing to do. An orchestrator is `Stable` when no operator request is pending, the
idents of its ranges are distinct, no range is in an unknown state, every active range has its
minimum of placements, `op.CheckComplete` marks only ranges that are already `RsObsolete`, and
every placement is `Quiet`: its node holds the range in the placement's own state and nothing
asks for a change. Then every `tickRange` call writes back the range it looked up and makes no
call (`tickRange_stable`), each loop of `Tick` returns the orchestrator it was given, and the whole
tick does not panic and leaves the orchestrator as it was (`tick_stable`); so does every run of
`Run` whose ticks all find it stable, and `tickPlacement` makes no call in any of them
(`run_stable`).
-/
import Ranger.Orchestrator.Frame
import Ranger.Orchestrator.TickPlacement

namespace Ranger.Orchestrator

open Api

variable (env : Env)

/-- An orchestrator a tick has nothing to do for. -/
structure Stable (o : Orchestrator) : Prop where
  opMoves : o.opMoves = []
  opSplits : o.opSplits = []
  opJoins : o.opJoins = []
  nodup : (o.ranges.map (·.ident)).Nodup
  known : ∀ r ∈ o.ranges, r.state ≠ .unknown
  placed : ∀ r ∈ o.ranges, r.state = .active → env.minPlacements r ≤ r.placements.length
  complete : ∀ ops, env.operations = some ops → ∀ op ∈ ops, ∀ r ∈ o.ranges,
    r.ident ∈ env.checkComplete op o → r.state = .obsolete
  quiet : ∀ r ∈ o.ranges, ∀ p ∈ r.placements, ∀ op, Quiet env.view p r op

variable {env} {o : Orchestrator}

/-- Writing back a range looked up by its ident changes nothing, when idents are distinct. -/
theorem setRange_of_getRange (hn : (o.ranges.map (·.ident)).Nodup) {id : RangeID} {r : Range}
    (hg : o.getRange id = some r) : o.setRange r = o := by
  have hr : r ∈ o.ranges := List.mem_of_find?_eq_some hg
  rcases o with ⟨rs, ms, ss, js⟩
  simp only [setRange, mk.injEq, and_true]
  conv_rhs => rw [← List.map_id rs]
  exact List.map_congr_left fun r' hr' => by
    split_ifs with h
    · exact List.inj_on_of_nodup_map hn hr hr' h.symm
    · rfl

/-- Marking ranges that are already obsolete changes nothing. -/
theorem markObsolete_of_obsolete {ids : List RangeID}
    (h : ∀ r ∈ o.ranges, r.ident ∈ ids → r.state = .obsolete) : o.markObsolete ids = o := by
  rcases o with ⟨rs, ms, ss, js⟩
  simp only [markObsolete, mk.injEq, and_true]
  conv_rhs => rw [← List.map_id rs]
  exact List.map_congr_left fun r hr => by
    split_ifs with hi
    · rw [← h r hr hi]; rfl
    · rfl

theorem Stable.tickState_eq (hs : Stable env o) {r : Range} (hr : r ∈ o.ranges) :
    tickState env o r = (o, r, true) := by
  unfold tickState
  split_ifs with ha
  · have hmin := Nat.not_lt.2 (hs.placed r hr ha)
    simp only [tickActive, hmin, if_false, hs.opMoves, hs.opSplits, List.find?_nil, List.lookup_nil]
  · rfl

/-- The placement loop over the placements of a range that are all quiet leaves the slice as it
was, marks nothing, and makes no call. -/
theorem tickPlacements_quiet {r : Range} {op : Bool}
    (hq : ∀ p ∈ r.placements, tickPlacement env.view p r op = .ok ([], false)) :
    ∀ (done ps : List Placement), done ++ ps = r.placements →
      tickPlacements env r op done ps = .ok (r.placements, [], ps.map (·, []))
  | done, [], h => by rw [List.append_nil] at h; rw [← h]; rfl
  | done, p :: ps, h => by
    have hr : { r with placements := done ++ p :: ps } = r := by rw [h]
    have hl := tickPlacements_quiet hq (done ++ [p]) ps (by rw [List.append_assoc]; exact h)
    simp only [tickPlacements, hr, hq p (h ▸ List.mem_append_right _ (List.mem_cons_self _ _)),
      Placement.applyCalls, List.foldl_nil, hl]
    rfl

/-- In a stable orchestrator `tickRange` writes back the range it looked up, passes every
placement to `tickPlacement`, and gets no call on any. -/
theorem tickRange_stable (hs : Stable env o) {id : RangeID} {r : Range}
    (hg : o.getRange id = some r) (op : Bool) :
    tickRange env o r op = .ok (o, r.placements.map (·, [])) := by
  have hr : r ∈ o.ranges := List.mem_of_find?_eq_some hg
  have hq : ∀ p ∈ r.placements, tickPlacement env.view p r op = .ok ([], false) :=
    fun p hp => (tickPlacement_quiet_iff _ p r op).2 (hs.quiet r hr p hp op)
  unfold tickRange
  rw [if_neg (hs.known r hr)]
  simp only [hs.tickState_eq hr, if_true, tickPlacements_quiet hq [] r.placements rfl,
    removeIndices, List.flatMap_map, List.flatMap_nil]
  rw [setRange_of_getRange hs.nodup hg,
    List.flatMap_eq_nil_iff.2 fun _ _ => (rfl : ([] : List OpMove) = []), List.append_nil]

/-- Every entry of trace `t` is a placement of the range of `o` it names, which got no call. -/
def Quietly (o : Orchestrator) (t : Trace) : Prop :=
  ∀ x ∈ t, ∃ r ∈ o.ranges, r.ident = x.1 ∧ x.2.1 ∈ r.placements ∧ x.2.2 = []

theorem Quietly.nil : Quietly o [] := nofun

theorem Quietly.append {t t' : Trace} (h : Quietly o t) (h' : Quietly o t') : Quietly o (t ++ t') :=
  fun x hx => (List.mem_append.1 hx).elim (h x) (h' x)

theorem quietly_of_getRange {id : RangeID} {r : Range} (hg : o.getRange id = some r) :
    Quietly o ((r.placements.map (·, [])).map (id, ·)) := by
  intro x hx
  simp only [List.map_map, List.mem_map, Function.comp] at hx
  obtain ⟨p, hp, rfl⟩ := hx
  exact ⟨r, List.mem_of_find?_eq_some hg, by simpa using List.find?_some hg, hp, rfl⟩

theorem tickOpRanges_stable (hs : Stable env o) :
    ∀ (ids visited : List RangeID),
      ∃ visited' t, tickOpRanges env o visited ids = .ok (o, visited', t) ∧ Quietly o t
  | [], visited => ⟨visited, [], rfl, .nil⟩
  | id :: ids, visited => by
    simp only [tickOpRanges]
    cases hg : o.getRange id with
    | none => exact tickOpRanges_stable hs ids visited
    | some r =>
      obtain ⟨visited', t, h, ht⟩ := tickOpRanges_stable hs ids (id :: visited)
      exact ⟨visited', (r.placements.map (·, [])).map (id, ·) ++ t,
        by simp only [tickRange_stable hs hg, h], (quietly_of_getRange hg).append ht⟩

theorem tickOps_stable (hs : Stable env o) {ops : List (List RangeID)}
    (hops : env.operations = some ops) :
    ∀ ops' : List (List RangeID), ops' ⊆ ops → ∀ visited : List RangeID,
      ∃ visited' t, tickOps env o visited ops' = .ok (o, visited', t) ∧ Quietly o t
  | [], _, visited => ⟨visited, [], rfl, .nil⟩
  | op :: ops', hsub, visited => by
    have hm : o.markObsolete (env.checkComplete op o) = o :=
      markObsolete_of_obsolete (hs.complete ops hops op (hsub (List.mem_cons_self _ _)))
    obtain ⟨v₁, t₁, h₁, ht₁⟩ := tickOpRanges_stable hs op visited
    obtain ⟨v₂, t₂, h₂, ht₂⟩ :=
      tickOps_stable hs hops ops' (fun _ h => hsub (List.mem_cons_of_mem _ h)) v₁
    exact ⟨v₂, t₁ ++ t₂, by simp only [tickOps, hm, h₁, h₂], ht₁.append ht₂⟩

theorem tickRest_stable (hs : Stable env o) (visited : List RangeID) :
    ∀ ids : List RangeID, ∃ t, tickRest env visited o ids = .ok (o, t) ∧ Quietly o t
  | [] => ⟨[], rfl, .nil⟩
  | id :: ids => by
    obtain ⟨t, h, ht⟩ := tickRest_stable hs visited ids
    simp only [tickRest]
    cases hg : o.getRange id with
    | none => exact ⟨t, h, ht⟩
    | some r =>
      dsimp only
      split_ifs
      · exact ⟨t, h, ht⟩
      · exact ⟨(r.placements.map (·, [])).map (id, ·) ++ t, by simp only [tickRange_stable hs hg, h],
          (quietly_of_getRange hg).append ht⟩

/-- A tick of a stable orchestrator does not panic, leaves it as it was, and passes to
`tickPlacement` only placements of its ranges, on which it makes no call. -/
theorem tick_stable (hs : Stable env o) : ∃ t, tick env o = .ok (o, t) ∧ Quietly o t := by
  have hj : { o.opJoins.foldl (joinOne env) o with opJoins := [] } = o := by
    rcases o with ⟨rs, ms, ss, js⟩
    cases hs.opJoins
    rfl
  unfold tick
  simp only [hj]
  rcases hops : env.operations with _ | ops
  · exact tickRest_stable hs [] _
  · obtain ⟨v, t, h, ht⟩ := tickOps_stable hs hops ops (List.Subset.refl _) []
    obtain ⟨t', h', ht'⟩ := tickRest_stable hs v (o.ranges.map (·.ident))
    exact ⟨t ++ t', by simp only [h, h'], ht.append ht'⟩

/-- `Run` over a stable orchestrator, at ticks that each find it stable, neither panics nor
changes it, and `tickPlacement` makes no call. -/
theorem run_stable : ∀ {envs : List Env}, (∀ e ∈ envs, Stable e o) →
    ∃ ts, run envs o = .ok (o, ts) ∧ ∀ t ∈ ts, ∀ x ∈ t, x.2.2 = []
  | [], _ => ⟨[], rfl, nofun⟩
  | e :: es, hs => by
    obtain ⟨t, ht, hq⟩ := tick_stable (hs e (List.mem_cons_self e es))
    obtain ⟨ts, hts, hc⟩ := run_stable fun e' he' => hs e' (List.mem_cons_of_mem e he')
    refine ⟨t :: ts, by simp only [run, ht, hts], fun t' ht' x hx => ?_⟩
    rcases List.mem_cons.1 ht' with rfl | ht'
    · obtain ⟨-, -, -, -, hx⟩ := hq x hx
      exact hx
    · exact hc t' ht' x hx

/-- Range 0, the parent of a finished operation, has no placement left; range 1 is the child,
pending on node a; one placement each, and `op.CheckComplete` marks range 0 obsolete. -/
def childEnv (v : View) : Env :=
  ⟨fun _ => 1, fun _ _ => none, fun _ _ => none, fun _ _ => none, some [[0, 1]], fun _ _ => [0], v⟩

/-- The parent subsuming with no placement, and the child pending on node a. -/
def childPending : Orchestrator :=
  ⟨[⟨0, .subsuming, []⟩, ⟨1, .active, [⟨"a", .pending, ""⟩]⟩], [], [], []⟩

/-- The parent obsolete, and the child active on node a. -/
def childActive : Orchestrator :=
  ⟨[⟨0, .obsolete, []⟩, ⟨1, .active, [⟨"a", .active, ""⟩]⟩], [], [], []⟩

/-- Three ticks, at which node a holds the child inactive, then inactive with the operation
allowing activation, then active, complete the operation and activate the child; then every tick
at which node a holds it active finds the orchestrator stable, and changes nothing. -/
theorem run_stable_child :
    (run [childEnv (holdingView .inactive false), childEnv (holdingView .inactive true),
        childEnv (holdingView .active false)] childPending).map (·.1) = .ok childActive ∧
      (∀ e ∈ [childEnv (holdingView .active false), childEnv (holdingView .active false)],
        Stable e childActive) ∧
      ∃ ts, run [childEnv (holdingView .active false), childEnv (holdingView .active false)]
          childActive = .ok (childActive, ts) ∧ ∀ t ∈ ts, ∀ x ∈ t, x.2.2 = [] :=
  have hs : ∀ e ∈ [childEnv (holdingView .active false), childEnv (holdingView .active false)],
      Stable e childActive := fun e he => by
    have hq : ∀ r ∈ childActive.ranges, ∀ p ∈ r.placements, ∀ op,
        tickPlacement (holdingView .active false) p r op = .ok ([], false) := by decide
    simp only [List.mem_cons, List.mem_singleton, or_self, List.not_mem_nil, or_false] at he
    subst he
    refine ⟨rfl, rfl, rfl, by decide, by decide, by decide, fun ops h => ?_,
      fun r hr p hp op => (tickPlacement_quiet_iff _ p r op).1 (hq r hr p hp op)⟩
    cases h
    decide
  ⟨by decide, hs, run_stable hs⟩

end Ranger.Orchestrator
