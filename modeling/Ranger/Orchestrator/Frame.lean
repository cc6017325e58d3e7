/-
What a whole `Tick` does to the orchestrator, and which ranges it ticks. Every part of the tick
only writes through ranges, appends ranges, appends moves and deletes entries of the map of
pending splits (`Extends`): a tick never drops a range nor reorders the list, never queues or
changes a split, and consumes every pending join (`tick_extends`). The pending split of an active
range is deleted once the tick gets past the range's placement and move, before `Candidate` is
asked, so a split with no candidate is consumed without being made. The keyspace's `Split`,
`JoinTwo` and `op.CheckComplete`, whose bodies are not under src/, enter as appending the ranges
they make and marking ranges `RsObsolete`.

The trace of a tick is that of the operations loop followed by that of the loop over the
snapshot; the latter ticks only ranges that existed when the tick started, and none that an
operation ticked (`tick_trace_sources`), which is what the `visited` map of `Tick` is for.

No range has two placements replacing the same node, and a tick keeps it so
(`tick_replacesOnce`): `doMove` refuses to replace a node some placement already replaces, the
placements a tick adds otherwise replace nothing, and `DoneReplacing` only clears. All three
results come from one statement about the loops of `Tick` (`tick_spec`), for any preorder that
each `tickRange` call and each `op.CheckComplete` keep.
-/
import Ranger.Orchestrator.Tick

namespace Ranger

namespace Orchestrator

open Api

/-! ## Extending an orchestrator -/

@[simp] theorem setRange_idents (o : Orchestrator) (r : Range) :
    (o.setRange r).ranges.map (·.ident) = o.ranges.map (·.ident) := by
  simp only [setRange, List.map_map]
  exact List.map_congr_left fun r' _ => by by_cases h : r'.ident = r.ident <;> simp [h]

@[simp] theorem markObsolete_idents (o : Orchestrator) (ids : List RangeID) :
    (o.markObsolete ids).ranges.map (·.ident) = o.ranges.map (·.ident) := by
  simp only [markObsolete, List.map_map]
  exact List.map_congr_left fun r _ => by by_cases h : r.ident ∈ ids <;> simp [h]

/-- `o'` extends `o`: the idents of `o`'s ranges are a prefix of those of `o'`, `o'`'s pending
splits are `o`'s less those of some ranges, and the pending joins are the same. -/
structure Extends (o o' : Orchestrator) : Prop where
  ranges : o.ranges.map (·.ident) <+: o'.ranges.map (·.ident)
  opSplits : ∃ ids : List RangeID, o'.opSplits = o.opSplits.filter fun s => s.1 ∉ ids
  opJoins : o'.opJoins = o.opJoins

namespace Extends

variable {o o₁ o₂ : Orchestrator}

theorem opSplits_nil (o : Orchestrator) : o.opSplits = o.opSplits.filter fun s => s.1 ∉ ([] : List RangeID) := by
  simp

theorem refl (o : Orchestrator) : Extends o o := ⟨List.prefix_refl _, ⟨[], opSplits_nil o⟩, rfl⟩

/-- Deleting the splits of some ranges, then of others, deletes the splits of both. -/
theorem opSplits_filter_filter (l : List (RangeID × OpSplit)) (ids₁ ids₂ : List RangeID) :
    (l.filter fun s => s.1 ∉ ids₁).filter (fun s => s.1 ∉ ids₂) =
      l.filter fun s => s.1 ∉ ids₁ ++ ids₂ := by
  rw [List.filter_filter]
  exact List.filter_congr fun s _ => by simp [Bool.and_comm]

theorem trans (h₁ : Extends o o₁) (h₂ : Extends o₁ o₂) : Extends o o₂ := by
  obtain ⟨ids₁, h₁s⟩ := h₁.opSplits
  obtain ⟨ids₂, h₂s⟩ := h₂.opSplits
  refine ⟨h₁.ranges.trans h₂.ranges, ⟨ids₁ ++ ids₂, ?_⟩, h₂.opJoins.trans h₁.opJoins⟩
  rw [h₂s, h₁s, opSplits_filter_filter]

theorem setRange (o : Orchestrator) (r : Range) : Extends o (o.setRange r) :=
  ⟨by simp, ⟨[], opSplits_nil o⟩, rfl⟩

theorem append (o : Orchestrator) (rs : List Range) :
    Extends o { o with ranges := o.ranges ++ rs } :=
  ⟨by simp, ⟨[], opSplits_nil o⟩, rfl⟩

theorem opMoves (o : Orchestrator) (ms : List OpMove) : Extends o { o with opMoves := ms } :=
  ⟨List.prefix_refl _, ⟨[], opSplits_nil o⟩, rfl⟩

theorem markObsolete (o : Orchestrator) (ids : List RangeID) : Extends o (o.markObsolete ids) :=
  ⟨by simp, ⟨[], opSplits_nil o⟩, rfl⟩

end Extends

variable (env : Env)

/-! ## One range -/

theorem doSplit_extends (o : Orchestrator) (r : Range) (s : OpSplit) :
    Extends o (doSplit env o r s).1 := by
  unfold doSplit
  split
  · exact .refl o
  split
  · exact .refl o
  split
  · exact .refl o
  exact .append o _

/-- The pending split of `tickActive`, taken out of `opSplits`. -/
theorem split_extends (o : Orchestrator) (id : RangeID) :
    Extends o { o with opSplits := o.opSplits.filter (·.1 != id) } :=
  ⟨List.prefix_refl _, ⟨[id], List.filter_congr fun s _ => by cases h : s.1 == id <;> simp_all [bne]⟩, rfl⟩

theorem tickActive_extends (o : Orchestrator) (r : Range) : Extends o (tickActive env o r).1 := by
  have hsplit : ∀ {o₁ : Orchestrator} (r₁ : Range), Extends o o₁ →
      Extends o (match o₁.opSplits.lookup r₁.ident with
        | none => (o₁, r₁, true)
        | some s => doSplit env { o₁ with opSplits := o₁.opSplits.filter (·.1 != r₁.ident) } r₁ s).1 := by
    intro o₁ r₁ h₁
    split
    · exact h₁
    · exact h₁.trans ((split_extends o₁ _).trans (doSplit_extends env _ _ _))
  unfold tickActive
  dsimp only
  split
  · exact .refl o
  split <;> rename_i hm
  -- in each case the pending move left `o` as it was, or took the move out of it
  all_goals split at hm <;> obtain ⟨-, rfl⟩ := Prod.mk.inj hm
  · exact .refl o
  · exact .opMoves o _
  · exact hsplit _ (.refl o)
  · exact hsplit _ (.opMoves o _)
  · exact hsplit _ (.refl o)
  · exact hsplit _ (.opMoves o _)

theorem tickState_extends (o : Orchestrator) (r : Range) : Extends o (tickState env o r).1 := by
  unfold tickState
  split
  · exact tickActive_extends env o r
  · exact .refl o

theorem tickRange_extends {o o' : Orchestrator} {r : Range} {op : Bool}
    {t : List (Placement × List Call)} (h : tickRange env o r op = .ok (o', t)) : Extends o o' := by
  have h₁ := tickState_extends env o r
  rcases tickRange_ok env h with ⟨o₁, r₁, hs, rfl, -⟩ | ⟨o₁, r₁, _, _, _, hs, -, -, rfl⟩ <;>
    rw [hs] at h₁
  · exact h₁.trans (.setRange o₁ r₁)
  · exact (h₁.trans (.setRange o₁ _)).trans (.opMoves _ _)

/-! ## Replacements -/

/-- No two placements of `r` replace the same node: the `IsReplacing` annotations that are set are
pairwise distinct. -/
def Range.ReplacesOnce (r : Range) : Prop :=
  ((r.placements.map (·.isReplacing)).filter (· ≠ "")).Nodup

instance instDecidablePredReplacesOnce : DecidablePred Range.ReplacesOnce := fun _ =>
  inferInstanceAs (Decidable (List.Nodup _))

/-- No range of `o` has two placements replacing the same node. -/
def ReplacesOnce (o : Orchestrator) : Prop := ∀ r ∈ o.ranges, r.ReplacesOnce

instance instDecidablePredOrchestratorReplacesOnce : DecidablePred ReplacesOnce := fun o =>
  inferInstanceAs (Decidable (∀ r ∈ o.ranges, r.ReplacesOnce))

namespace Range

variable {r r' : Range}

theorem ReplacesOnce.sublist (hr : r.ReplacesOnce) (h : r'.placements.Sublist r.placements) :
    r'.ReplacesOnce :=
  ((h.map _).filter _).nodup hr

theorem ReplacesOnce.newPlacement (hr : r.ReplacesOnce) (n : NodeID) :
    (r.newPlacement n).ReplacesOnce := by
  simpa [ReplacesOnce, Range.newPlacement, List.filter_append] using hr

theorem ReplacesOnce.newReplacement (hr : r.ReplacesOnce) {dest src : NodeID}
    (hsrc : ∀ p ∈ r.placements, p.isReplacing ≠ src) : (r.newReplacement dest src).ReplacesOnce := by
  simp only [ReplacesOnce, Range.newReplacement, List.map_append, List.filter_append,
    List.nodup_append]
  refine ⟨hr, by by_cases h : src = "" <;> simp [h], fun x hx hx' => ?_⟩
  obtain ⟨p, hp, rfl⟩ := List.mem_map.1 (List.mem_filter.1 hx).1
  exact hsrc p hp (by simpa using (List.mem_filter.1 hx').1)

theorem replacesOnce_fresh (id : RangeID) (n : NodeID) :
    ((Range.mk id .active []).newPlacement n).ReplacesOnce :=
  (show (Range.mk id .active []).ReplacesOnce from List.nodup_nil).newPlacement n

end Range

/-- A move `doMove` makes adds a replacement of a placement of the range that no placement was
replacing. -/
theorem doMove_ok {r r' : Range} {m : OpMove} (h : doMove env r m = .ok r') :
    ∃ src ∈ r.placements, (∀ p ∈ r.placements, p.isReplacing ≠ src.nodeID) ∧
      ∃ dest, r' = r.newReplacement dest src.nodeID := by
  unfold doMove at h
  rcases hs : (if m.src ≠ "" then r.placements.find? (·.nodeID == m.src)
    else r.placements.find? (·.stateCurrent == .active)) with _ | src <;> simp only [hs] at h
  · cases h
  have hmem : src ∈ r.placements := by
    split_ifs at hs <;> exact List.mem_of_find?_eq_some hs
  split_ifs at h with hany
  split at h
  · cases h
  · cases h
    exact ⟨src, hmem, fun p hp he => hany (List.any_eq_true.2 ⟨p, hp, by simp [he]⟩), _, rfl⟩

theorem doMove_replacesOnce {r r' : Range} {m : OpMove} (h : doMove env r m = .ok r')
    (hr : r.ReplacesOnce) : r'.ReplacesOnce := by
  obtain ⟨src, -, hsrc, dest, rfl⟩ := doMove_ok env h
  exact hr.newReplacement hsrc

variable {o : Orchestrator} {r : Range}

theorem ReplacesOnce.setRange (ho : o.ReplacesOnce) (hr : r.ReplacesOnce) :
    (o.setRange r).ReplacesOnce := by
  intro r' hr'
  obtain ⟨r'', h'', rfl⟩ := List.mem_map.1 hr'
  split_ifs
  exacts [hr, ho _ h'']

theorem ReplacesOnce.append (ho : o.ReplacesOnce) {rs : List Range}
    (hrs : ∀ r ∈ rs, r.ReplacesOnce) : ({ o with ranges := o.ranges ++ rs } : Orchestrator).ReplacesOnce :=
  fun r h => (List.mem_append.1 h).elim (ho r) (hrs r)

theorem doSplit_replacesOnce (ho : o.ReplacesOnce) (hr : r.ReplacesOnce) (s : OpSplit) :
    (doSplit env o r s).1.ReplacesOnce ∧ (doSplit env o r s).2.1.ReplacesOnce := by
  unfold doSplit
  split
  · exact ⟨ho, hr⟩
  split
  · exact ⟨ho, hr⟩
  split
  · exact ⟨ho, hr⟩
  refine ⟨ho.append ?_, hr⟩
  simp only [List.mem_cons, List.mem_singleton, forall_eq_or_imp, forall_eq, List.not_mem_nil,
    or_false]
  exact ⟨Range.replacesOnce_fresh _ _, Range.replacesOnce_fresh _ _⟩

theorem tickActive_replacesOnce (ho : o.ReplacesOnce) (hr : r.ReplacesOnce) :
    (tickActive env o r).1.ReplacesOnce ∧ (tickActive env o r).2.1.ReplacesOnce := by
  have hsplit : ∀ {o₁ : Orchestrator} {r₁ : Range}, o₁.ReplacesOnce → r₁.ReplacesOnce →
      (match o₁.opSplits.lookup r₁.ident with
        | none => (o₁, r₁, true)
        | some s => doSplit env { o₁ with opSplits := o₁.opSplits.filter (·.1 != r₁.ident) } r₁ s
        ).1.ReplacesOnce ∧
      (match o₁.opSplits.lookup r₁.ident with
        | none => (o₁, r₁, true)
        | some s => doSplit env { o₁ with opSplits := o₁.opSplits.filter (·.1 != r₁.ident) } r₁ s
        ).2.1.ReplacesOnce := by
    intro o₁ r₁ h₁ h₂
    split
    · exact ⟨h₁, h₂⟩
    · refine doSplit_replacesOnce env ?_ h₂ _
      exact h₁
  unfold tickActive
  dsimp only
  split
  · exact ⟨ho, hr⟩
  next r₁ hp =>
  have hr₁ : r₁.ReplacesOnce := by
    split_ifs at hp
    · obtain ⟨n, -, rfl⟩ := Option.map_eq_some'.1 hp; exact hr.newPlacement n
    · cases hp; exact hr
  split <;> rename_i hm
  -- in each case the pending move left `o` as it was or took the move out of it, and a move that
  -- was made added a replacement
  all_goals split at hm <;> obtain ⟨hx, rfl⟩ := Prod.mk.inj hm
  · exact ⟨ho, hr₁⟩
  · exact ⟨ho, hr₁⟩
  · cases hx
  · exact hsplit ho (doMove_replacesOnce env (Option.some.inj hx) hr₁)
  · exact hsplit ho hr₁
  · cases hx

theorem tickState_replacesOnce (ho : o.ReplacesOnce) (hr : r.ReplacesOnce) :
    (tickState env o r).1.ReplacesOnce ∧ (tickState env o r).2.1.ReplacesOnce := by
  unfold tickState
  split
  · exact tickActive_replacesOnce env ho hr
  · exact ⟨ho, hr⟩

/-- The removal loop keeps some of the placements, in order. -/
theorem removeIndices_sublist : ∀ {ps qs : List Placement} {idxs : List Nat},
    removeIndices ps idxs = .ok qs → qs.Sublist ps
  | ps, qs, [], h => by cases h; exact .refl _
  | ps, qs, i :: idxs, h => by
    unfold removeIndices at h
    split_ifs at h
    exact (removeIndices_sublist h).trans
      (List.eraseIdx_eq_take_drop_succ ps i ▸ List.eraseIdx_sublist ps i)

/-- A call never sets `IsReplacing`: it leaves it, or `DoneReplacing` clears it. -/
theorem Call.apply_isReplacing (c : Call) (p : Placement) :
    (c.apply p).isReplacing = p.isReplacing ∨ (c.apply p).isReplacing = "" := by
  cases c <;> simp [Call.apply]

theorem applyCalls_isReplacing : ∀ (calls : List Call) (p : Placement),
    (p.applyCalls calls).isReplacing = p.isReplacing ∨ (p.applyCalls calls).isReplacing = ""
  | [], _ => .inl rfl
  | c :: cs, p => by
    show ((c.apply p).applyCalls cs).isReplacing = _ ∨ ((c.apply p).applyCalls cs).isReplacing = _
    rcases applyCalls_isReplacing cs (c.apply p) with h | h
    · rw [h]; exact Call.apply_isReplacing c p
    · exact .inr h

/-- The `IsReplacing` annotations the placement loop leaves set are some of those that were set. -/
theorem replacing_applyCalls_sublist : ∀ t : List (Placement × List Call),
    (((t.map fun x => x.1.applyCalls x.2).map (·.isReplacing)).filter (· ≠ "")).Sublist
      (((t.map (·.1)).map (·.isReplacing)).filter (· ≠ ""))
  | [] => .slnil
  | x :: t => by
    simp only [List.map_cons, List.filter_cons]
    rcases applyCalls_isReplacing x.2 x.1 with h | h
    · rw [h]
      split_ifs
      · exact (replacing_applyCalls_sublist t).cons₂ _
      · exact replacing_applyCalls_sublist t
    · rw [h, if_neg (by simp)]
      split_ifs
      · exact (replacing_applyCalls_sublist t).cons _
      · exact replacing_applyCalls_sublist t

theorem ReplacesOnce.markObsolete (ho : o.ReplacesOnce) (ids : List RangeID) :
    (o.markObsolete ids).ReplacesOnce := by
  intro r' hr'
  obtain ⟨r'', h'', rfl⟩ := List.mem_map.1 hr'
  split_ifs
  exacts [ho r'' h'', ho r'' h'']

theorem tickRange_replacesOnce {o' : Orchestrator} {op : Bool} {t : List (Placement × List Call)}
    (ho : o.ReplacesOnce) (hr : r.ReplacesOnce) (h : tickRange env o r op = .ok (o', t)) :
    o'.ReplacesOnce := by
  have h₁ := tickState_replacesOnce env ho hr
  rcases tickRange_ok env h with ⟨o₁, r₁, hs, rfl, -⟩ | ⟨o₁, r₁, qs, _, ps, hs, hl, hps, rfl⟩ <;>
    rw [hs] at h₁
  · exact h₁.1.setRange h₁.2
  · obtain ⟨ht, rfl, -⟩ := tickPlacements_spec env hl
    -- the loop's writes only clear annotations, and the removal loop keeps some placements
    have hq :
        Range.ReplacesOnce { r₁ with placements := [] ++ t.map fun x => x.1.applyCalls x.2 } := by
      have h₂ : Range.ReplacesOnce r₁ := h₁.2
      rw [Range.ReplacesOnce, ← ht] at h₂
      simpa only [Range.ReplacesOnce, List.nil_append] using
        (replacing_applyCalls_sublist t).nodup h₂
    exact h₁.1.setRange (hq.sublist (removeIndices_sublist hps))

/-! ## The joins of `Tick` -/

theorem joinOne_extends (o : Orchestrator) (j : OpJoin) : Extends o (joinOne env o j) := by
  unfold joinOne
  split
  · split
    · exact .refl o
    split
    · exact .refl o
    exact ((Extends.setRange o _).trans (.setRange _ _)).trans (.append _ _)
  · exact .refl o

theorem joins_extends (js : List OpJoin) : ∀ o, Extends o (js.foldl (joinOne env) o) := by
  induction js with
  | nil => exact .refl
  | cons j js ih => exact fun o => (joinOne_extends env o j).trans (ih _)

theorem joinOne_replacesOnce (ho : o.ReplacesOnce) (j : OpJoin) : (joinOne env o j).ReplacesOnce := by
  unfold joinOne
  split
  · next r₁ r₂ h₁ h₂ =>
    split
    · exact ho
    split
    · exact ho
    dsimp only
    refine ((ho.setRange ?_).setRange ?_).append ?_
    · exact ho r₁ (List.mem_of_find?_eq_some h₁)
    · exact ho r₂ (List.mem_of_find?_eq_some h₂)
    · simpa using Range.replacesOnce_fresh _ _
  · exact ho

theorem joins_replacesOnce (js : List OpJoin) :
    ∀ o : Orchestrator, o.ReplacesOnce → (js.foldl (joinOne env) o).ReplacesOnce := by
  induction js with
  | nil => exact fun _ h => h
  | cons j js ih => exact fun o h => ih _ (joinOne_replacesOnce env h j)

/-! ## The loops of `Tick`

For any preorder `R` that every `tickRange` call keeps, from a range it looked up, and that every
`op.CheckComplete` keeps: the loops of `Tick` keep it, and tick only the ranges they should. -/

section Loops

variable (R : Orchestrator → Orchestrator → Prop) (hrefl : ∀ o, R o o)
  (htrans : ∀ {o₁ o₂ o₃}, R o₁ o₂ → R o₂ o₃ → R o₁ o₃)
  (hstep : ∀ {o o' : Orchestrator} {id : RangeID} {r : Range} {op : Bool}
    {t : List (Placement × List Call)}, o.getRange id = some r → tickRange env o r op = .ok (o', t) →
      R o o')
  (hmark : ∀ o ids, R o (o.markObsolete ids))
include hrefl htrans hstep

/-- The loop over the ranges of one operation keeps `R`, records as visited every range it ticks,
and ticks only ranges of the operation. -/
theorem tickOpRanges_spec {ids : List RangeID} :
    ∀ {o o' : Orchestrator} {visited visited' : List RangeID} {t : Trace},
      tickOpRanges env o visited ids = .ok (o', visited', t) →
      R o o' ∧ visited ⊆ visited' ∧ ∀ x ∈ t, x.1 ∈ ids ∧ x.1 ∈ visited' := by
  induction ids with
  | nil => intro o o' visited visited' t h; cases h; exact ⟨hrefl o, List.Subset.refl _, by simp⟩
  | cons id ids ih =>
    intro o o' visited visited' t h
    simp only [tickOpRanges] at h
    cases hg : o.getRange id with
    | none =>
      simp only [hg] at h
      obtain ⟨he, hv, ht⟩ := ih h
      exact ⟨he, hv, fun x hx => ⟨List.mem_cons_of_mem _ (ht x hx).1, (ht x hx).2⟩⟩
    | some r =>
      simp only [hg] at h
      split at h
      · cases h
      next o₁ t₁ hr =>
      split at h
      · cases h
      next o₂ v₂ t₂ hrest =>
      cases h
      obtain ⟨he, hv, ht⟩ := ih hrest
      refine ⟨htrans (hstep hg hr) he, fun u hu => hv (List.mem_cons_of_mem _ hu),
        fun x hx => ?_⟩
      rcases List.mem_append.1 hx with hx | hx
      · obtain ⟨p, -, rfl⟩ := List.mem_map.1 hx
        exact ⟨List.mem_cons_self _ _, hv (List.mem_cons_self _ _)⟩
      · exact ⟨List.mem_cons_of_mem _ (ht x hx).1, (ht x hx).2⟩

include hmark in
/-- The loop over the operations in flight keeps `R`, records as visited every range it ticks, and
ticks only ranges of the operations. -/
theorem tickOps_spec {ops : List (List RangeID)} :
    ∀ {o o' : Orchestrator} {visited visited' : List RangeID} {t : Trace},
      tickOps env o visited ops = .ok (o', visited', t) →
      R o o' ∧ visited ⊆ visited' ∧ ∀ x ∈ t, x.1 ∈ visited' ∧ ∃ op ∈ ops, x.1 ∈ op := by
  induction ops with
  | nil => intro o o' visited visited' t h; cases h; exact ⟨hrefl o, List.Subset.refl _, by simp⟩
  | cons op ops ih =>
    intro o o' visited visited' t h
    simp only [tickOps] at h
    split at h
    · cases h
    next o₁ v₁ t₁ hop =>
    split at h
    · cases h
    next o₂ v₂ t₂ hrest =>
    cases h
    obtain ⟨he₁, hv₁, ht₁⟩ := tickOpRanges_spec env R hrefl htrans hstep hop
    obtain ⟨he₂, hv₂, ht₂⟩ := ih hrest
    refine ⟨htrans (htrans (hmark _ _) he₁) he₂, hv₁.trans hv₂, fun x hx => ?_⟩
    rcases List.mem_append.1 hx with hx | hx
    · exact ⟨hv₂ (ht₁ x hx).2, op, List.mem_cons_self _ _, (ht₁ x hx).1⟩
    · obtain ⟨hx₁, op', hop', hx₂⟩ := ht₂ x hx
      exact ⟨hx₁, op', List.mem_cons_of_mem _ hop', hx₂⟩

/-- The loop over the snapshot keeps `R`, and ticks only ranges of the snapshot that were not
visited. -/
theorem tickRest_spec (visited : List RangeID) {ids : List RangeID} :
    ∀ {o o' : Orchestrator} {t : Trace}, tickRest env visited o ids = .ok (o', t) →
      R o o' ∧ ∀ x ∈ t, x.1 ∈ ids ∧ x.1 ∉ visited := by
  induction ids with
  | nil => intro o o' t h; cases h; exact ⟨hrefl o, by simp⟩
  | cons id ids ih =>
    intro o o' t h
    have hskip : ∀ {o' t}, tickRest env visited o ids = .ok (o', t) →
        R o o' ∧ ∀ x ∈ t, x.1 ∈ id :: ids ∧ x.1 ∉ visited := fun h =>
      ⟨(ih h).1, fun x hx => ⟨List.mem_cons_of_mem _ ((ih h).2 x hx).1, ((ih h).2 x hx).2⟩⟩
    simp only [tickRest] at h
    cases hg : o.getRange id with
    | none => simp only [hg] at h; exact hskip h
    | some r =>
      simp only [hg] at h
      split_ifs at h with hs
      · exact hskip h
      split at h
      · cases h
      next o₁ t₁ hr =>
      split at h
      · cases h
      next o₂ t₂ hrest =>
      cases h
      obtain ⟨he, ht⟩ := ih hrest
      refine ⟨htrans (hstep hg hr) he, fun x hx => ?_⟩
      rcases List.mem_append.1 hx with hx | hx
      · obtain ⟨p, -, rfl⟩ := List.mem_map.1 hx
        exact ⟨List.mem_cons_self _ _, fun hv => hs (.inr hv)⟩
      · exact ⟨List.mem_cons_of_mem _ (ht x hx).1, (ht x hx).2⟩

include hmark in
/-- A tick that does not panic: its loops keep `R` from the orchestrator with the joins done, and
its trace is the operations loop's, which ticks only ranges the operations name, followed by the
snapshot loop's, which ticks only ranges of the snapshot and none that the first ticked. -/
theorem tick_spec {o o' : Orchestrator} {t : Trace} (h : tick env o = .ok (o', t)) :
    R { o.opJoins.foldl (joinOne env) o with opJoins := [] } o' ∧
    ∃ tOps tRest, t = tOps ++ tRest ∧
      (∀ x ∈ tOps, ∃ ops, env.operations = some ops ∧ ∃ op ∈ ops, x.1 ∈ op) ∧
      (∀ x ∈ tRest, x.1 ∈ o.ranges.map (·.ident)) ∧ ∀ x ∈ tOps, ∀ y ∈ tRest, x.1 ≠ y.1 := by
  unfold tick at h
  dsimp only at h
  split at h
  · have hr := tickRest_spec env R hrefl htrans hstep [] h
    exact ⟨hr.1, [], t, rfl, by simp, fun x hx => (hr.2 x hx).1, by simp⟩
  next ops hops =>
  split at h
  · cases h
  next o₁ v₁ t₁ hop =>
  split at h
  · cases h
  next o₂ t₂ hrest =>
  cases h
  obtain ⟨he₁, -, h₁⟩ := tickOps_spec env R hrefl htrans hstep hmark hop
  obtain ⟨he₂, h₂⟩ := tickRest_spec env R hrefl htrans hstep v₁ hrest
  refine ⟨htrans he₁ he₂, t₁, t₂, rfl, fun x hx => ⟨ops, hops, (h₁ x hx).2⟩,
    fun x hx => (h₂ x hx).1, ?_⟩
  rintro x hx y hy he
  exact (h₂ y hy).2 (he ▸ (h₁ x hx).1)

end Loops

/-! ## A whole tick -/

/-- Every candidate is node c, a split makes ranges 3 and 4, range 1 is in an operation, and every
node holds every range active. -/
def splitEnv : Env :=
  ⟨fun _ => 1, fun _ _ => some "c", fun _ _ => some (3, 4), fun _ _ => none, some [[1]],
    fun _ _ => [], holdingView .active false⟩

/-- Range 1 subsuming on node a, and range 2 active on node b with a pending split. -/
def splitPending : Orchestrator :=
  ⟨[⟨1, .subsuming, [⟨"a", .active, ""⟩]⟩, ⟨2, .active, [⟨"b", .active, ""⟩]⟩], [],
    [(2, ⟨"m", "", ""⟩)], []⟩

/-- `splitPending` after a tick that finds no candidate: the split is consumed and not made. -/
def splitConsumed : Orchestrator :=
  ⟨[⟨1, .subsuming, [⟨"a", .active, ""⟩]⟩, ⟨2, .active, [⟨"b", .active, ""⟩]⟩], [], [], []⟩

/-- A tick that does not panic keeps every range, in order, ahead of those it creates; deletes
the pending splits of some ranges and queues or changes none; and consumes every pending join. -/
theorem tick_extends {o o' : Orchestrator} {t : Trace} (h : tick env o = .ok (o', t)) :
    o.ranges.map (·.ident) <+: o'.ranges.map (·.ident) ∧
      (∃ ids : List RangeID, o'.opSplits = o.opSplits.filter fun s => s.1 ∉ ids) ∧
      o'.opJoins = [] := by
  have h₀ := joins_extends env o.opJoins o
  have he := (tick_spec env Extends Extends.refl Extends.trans
    (fun _ hr => tickRange_extends env hr) Extends.markObsolete h).1
  obtain ⟨ids₀, h₀s⟩ := h₀.opSplits
  obtain ⟨ids, hs⟩ := he.opSplits
  refine ⟨h₀.ranges.trans he.ranges, ⟨ids₀ ++ ids, ?_⟩, he.opJoins⟩
  rw [hs, ← Extends.opSplits_filter_filter, ← h₀s]

/-- No candidate is found for the split of range 2: the tick consumes it without making it, and
returns before range 2's placement loop. -/
theorem tick_extends_consumed :
    tick { splitEnv with candidate := fun _ _ => none } splitPending =
      .ok (splitConsumed, [(1, ⟨"a", .active, ""⟩, [])]) ∧
    splitPending.ranges.map (·.ident) <+: splitConsumed.ranges.map (·.ident) ∧
    (∃ ids : List RangeID, splitConsumed.opSplits = splitPending.opSplits.filter fun s => s.1 ∉ ids) ∧
    splitConsumed.opJoins = [] :=
  have h : tick { splitEnv with candidate := fun _ _ => none } splitPending =
      .ok (splitConsumed, [(1, ⟨"a", .active, ""⟩, [])]) := by decide
  ⟨h, tick_extends _ h⟩

/-- A tick that does not panic keeps every range free of two placements replacing the same node:
`doMove` refuses to replace a node again, new placements add no replacement, and calls and
removals only take replacements away. -/
theorem tick_replacesOnce {o o' : Orchestrator} {t : Trace} (h : tick env o = .ok (o', t))
    (ho : o.ReplacesOnce) : o'.ReplacesOnce :=
  (tick_spec env (fun o o' : Orchestrator => o.ReplacesOnce → o'.ReplacesOnce) (fun _ h => h)
    (fun h₁ h₂ h => h₂ (h₁ h))
    (fun hg hr ho => tickRange_replacesOnce env ho (ho _ (List.mem_of_find?_eq_some hg)) hr)
    (fun _ ids ho => ho.markObsolete ids) h).1
    (joins_replacesOnce env o.opJoins o ho)

/-- Node a holds every range active; every other node is in the roster and holds none. -/
def placingView : View :=
  ⟨fun n => some ⟨n, false, fun _ => if n = "a" then some .active else none⟩, fun _ _ => false,
    fun _ _ _ => false, fun _ _ _ => false, fun _ _ _ => false⟩

/-- Range 1 on node a, with a pending move from a: the tick adds a placement on node b replacing
a and asks node b to prepare it, and a second move of range 1 from a is refused by the tick
after. -/
theorem tick_replacesOnce_move :
    tick ⟨fun _ => 1, fun _ _ => some "b", fun _ _ => none, fun _ _ => none, some [],
        fun _ _ => [], placingView⟩ ⟨[⟨1, .active, [⟨"a", .active, ""⟩]⟩], [⟨1, "a", ""⟩], [], []⟩ =
      .ok (⟨[⟨1, .active, [⟨"a", .active, ""⟩, ⟨"b", .pending, "a"⟩]⟩], [], [], []⟩,
        [(1, ⟨"a", .active, ""⟩, []), (1, ⟨"b", .pending, "a"⟩, [.want .inactive])]) ∧
    ReplacesOnce ⟨[⟨1, .active, [⟨"a", .active, ""⟩]⟩], [⟨1, "a", ""⟩], [], []⟩ ∧
    ReplacesOnce ⟨[⟨1, .active, [⟨"a", .active, ""⟩, ⟨"b", .pending, "a"⟩]⟩], [], [], []⟩ :=
  have h : tick ⟨fun _ => 1, fun _ _ => some "b", fun _ _ => none, fun _ _ => none, some [],
        fun _ _ => [], placingView⟩ ⟨[⟨1, .active, [⟨"a", .active, ""⟩]⟩], [⟨1, "a", ""⟩], [], []⟩ =
      .ok (⟨[⟨1, .active, [⟨"a", .active, ""⟩, ⟨"b", .pending, "a"⟩]⟩], [], [], []⟩,
        [(1, ⟨"a", .active, ""⟩, []), (1, ⟨"b", .pending, "a"⟩, [.want .inactive])]) := by decide
  have ho : ReplacesOnce ⟨[⟨1, .active, [⟨"a", .active, ""⟩]⟩], [⟨1, "a", ""⟩], [], []⟩ := by decide
  ⟨h, ho, tick_replacesOnce _ h ho⟩

end Orchestrator

end Ranger
