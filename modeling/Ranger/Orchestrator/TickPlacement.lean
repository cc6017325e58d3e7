/-
What `tickPlacement` does with one placement (`pkg/orchestrator`): the calls it makes and its
verdict. It looks the placement's node up in the roster, clears a stale `IsReplacing`, queues a
move off a node that wants to be drained, then acts on the placement's state and on the node's
state of the range: `PlacementToState` for what has already happened on the node, `Want` for what
the actuator is to make happen, and a verdict that the placement is to be destroyed.

A placement is destroyed exactly when it is `PsDropped`, or after a failed `Prepare` of a pending
placement the node does not hold, or a failed `Activate` of an inactive one the node has lost
(`tickPlacement_destroy_iff`); then no `PlacementToState` is made. Every `PlacementToState`
follows an edge of the state diagram `Edge` (`tickPlacement_edge`). A placement gets no call and
is kept exactly when it is `Quiet` (`tickPlacement_quiet_iff`). In the placement loop, every
`PsDropped` placement is marked for destruction, so two of them, one the last, make the removal
loop panic whatever the roster, the nodes and the operation say (`tickRange_panics_of_dropped`).
-/
import Ranger.Orchestrator.Tick

namespace Ranger.Orchestrator

open Api

section TickPlacement

variable (v : View)

/-! ## The destroy verdict -/

theorem placementPending_destroy (p : Placement) (ri : Option RemoteState) :
    (placementPending v p ri).2 = true ↔
      (ri = none ∨ ri = some .notFound) ∧ v.failed p .prepare = true := by
  rcases ri with _ | ⟨_ | _ | _ | _ | _ | _ | _ | _⟩ <;> simp [placementPending]

theorem placementInactive_destroy (p : Placement) (r : Range) (op : Bool)
    (ri : Option RemoteState) :
    (placementInactive v p r op ri).2 = true ↔ ri = none ∧ v.failed p .activate = true := by
  unfold placementInactive
  cases ri with
  | none => cases v.failed p .activate <;> cases v.mayDrop p r op <;> simp
  | some s =>
    cases s
    case inactive => cases v.mayActivate p r op <;> cases v.mayDrop p r op <;> simp
    all_goals simp

theorem placementActive_keep (p : Placement) (r : Range) (op : Bool) (ri : Option RemoteState) :
    (placementActive v p r op ri).2 = false := by
  rcases ri with _ | ⟨_ | _ | _ | _ | _ | _ | _ | _⟩ <;> rfl

/-- `tickPlacement` destroys a placement exactly when it is `PsDropped`, or is pending on a node
that does not hold the range or has lost it after `Prepare` failed, or is inactive on a node that
has lost the range after `Activate` failed. -/
theorem tickPlacement_destroy_iff (p : Placement) (r : Range) (op : Bool) :
    (∃ calls, tickPlacement v p r op = .ok (calls, true)) ↔
      p.stateCurrent = .dropped ∨
        ∃ n, v.nodeByIdent p.nodeID = some n ∧
          (p.stateCurrent = .pending ∧ (n.get r.ident = none ∨ n.get r.ident = some .notFound) ∧
              v.failed p .prepare = true ∨
            p.stateCurrent = .inactive ∧ n.get r.ident = none ∧ v.failed p .activate = true) := by
  unfold tickPlacement
  rcases hn : v.nodeByIdent p.nodeID with _ | n <;> cases hs : p.stateCurrent <;>
    simp [hs, placementPending_destroy, placementInactive_destroy, placementActive_keep]

/-! ## Moves along the state diagram -/

/-- The edges of the placement state diagram along which `tickPlacement` moves a placement. -/
inductive Edge : PlacementState → PlacementState → Prop
  /-- The node is gone, or holds the range in a state the placement cannot be in. -/
  | missing {s : PlacementState} : s ≠ .missing → s ≠ .dropped → Edge s .missing
  /-- `Prepare` has finished. -/
  | prepared : Edge .pending .inactive
  /-- `Activate` has finished. -/
  | activated : Edge .inactive .active
  /-- `Deactivate` has finished. -/
  | deactivated : Edge .active .inactive
  /-- The node no longer holds a range the operation lets go. -/
  | dropped : Edge .inactive .dropped
  /-- A missing placement is given up without an RPC. -/
  | missingDropped : Edge .missing .dropped

theorem placementToState_not_mem_pre (p : Placement) (r : Range) (n : Option NodeView)
    (s : PlacementState) : Call.placementToState s ∉ replacingCalls p r ++ drainCalls n r := by
  rw [List.mem_append, not_or]
  constructor
  · unfold replacingCalls; split_ifs <;> simp
  · unfold drainCalls
    split
    · split_ifs <;> simp
    · simp

theorem placementPending_toState {p : Placement} {ri : Option RemoteState} {s : PlacementState}
    (h : Call.placementToState s ∈ (placementPending v p ri).1) : s = .inactive ∨ s = .missing := by
  rcases ri with _ | ⟨_ | _ | _ | _ | _ | _ | _ | _⟩ <;> simp_all [placementPending]

theorem placementInactive_toState {p : Placement} {r : Range} {op : Bool}
    {ri : Option RemoteState} {s : PlacementState}
    (h : Call.placementToState s ∈ (placementInactive v p r op ri).1) :
    s = .dropped ∨ s = .missing ∨ s = .active := by
  revert h
  unfold placementInactive
  cases ri with
  | none => cases v.failed p .activate <;> cases v.mayDrop p r op <;> simp_all
  | some s =>
    cases s
    case inactive => cases v.mayActivate p r op <;> cases v.mayDrop p r op <;> simp
    all_goals simp_all

theorem placementActive_toState {p : Placement} {r : Range} {op : Bool}
    {ri : Option RemoteState} {s : PlacementState}
    (h : Call.placementToState s ∈ (placementActive v p r op ri).1) :
    s = .missing ∨ s = .inactive := by
  revert h
  unfold placementActive
  cases ri with
  | none => simp_all
  | some s =>
    cases s
    case active => cases v.mayDeactivate p r op <;> simp
    all_goals simp_all

/-- Every `PlacementToState` that `tickPlacement` makes moves the placement along an edge of the
state diagram: out of `PsDropped` never, out of `PsMissing` only to `PsDropped`. -/
theorem tickPlacement_edge {p : Placement} {r : Range} {op : Bool} {calls : List Call} {d : Bool}
    (h : tickPlacement v p r op = .ok (calls, d)) {s : PlacementState}
    (hs : Call.placementToState s ∈ calls) : Edge p.stateCurrent s := by
  simp only [tickPlacement] at h
  split_ifs at h with hn
  · cases h
    obtain rfl : s = .missing := by simpa using hs
    exact .missing hn.2.1 hn.2.2
  have hpre := placementToState_not_mem_pre p r (v.nodeByIdent p.nodeID) s
  cases hst : p.stateCurrent with
  | pending =>
    simp only [hst, Except.ok.injEq, Prod.mk.injEq] at h
    obtain ⟨rfl, -⟩ := h
    rcases (List.mem_append.1 hs).resolve_left hpre |> placementPending_toState v with rfl | rfl
    · exact .prepared
    · exact .missing (by decide) (by decide)
  | inactive =>
    simp only [hst, Except.ok.injEq, Prod.mk.injEq] at h
    obtain ⟨rfl, -⟩ := h
    rcases (List.mem_append.1 hs).resolve_left hpre |> placementInactive_toState v with
      rfl | rfl | rfl
    · exact .dropped
    · exact .missing (by decide) (by decide)
    · exact .activated
  | active =>
    simp only [hst, Except.ok.injEq, Prod.mk.injEq] at h
    obtain ⟨rfl, -⟩ := h
    rcases (List.mem_append.1 hs).resolve_left hpre |> placementActive_toState v with rfl | rfl
    · exact .missing (by decide) (by decide)
    · exact .deactivated
  | missing =>
    simp only [hst, Except.ok.injEq, Prod.mk.injEq] at h
    obtain ⟨rfl, -⟩ := h
    obtain rfl : s = .dropped := by simpa using (List.mem_append.1 hs).resolve_left hpre
    exact .missingDropped
  | dropped =>
    simp only [hst, Except.ok.injEq, Prod.mk.injEq] at h
    obtain ⟨rfl, -⟩ := h
    exact absurd hs hpre
  | unknown => simp [hst] at h

theorem placementPending_destroy_calls {p : Placement} {ri : Option RemoteState}
    (h : (placementPending v p ri).2 = true) : (placementPending v p ri).1 = [.want .inactive] := by
  rcases ri with _ | ⟨_ | _ | _ | _ | _ | _ | _ | _⟩ <;> simp_all [placementPending]

theorem placementInactive_destroy_calls {p : Placement} {r : Range} {op : Bool}
    {ri : Option RemoteState} (h : (placementInactive v p r op ri).2 = true) :
    (placementInactive v p r op ri).1 = [] := by
  obtain ⟨rfl, hf⟩ := (placementInactive_destroy v p r op ri).1 h
  simp [placementInactive, hf]

/-- A placement that `tickPlacement` destroys gets no `PlacementToState` in the same tick. -/
theorem tickPlacement_destroy_no_placementToState {p : Placement} {r : Range} {op : Bool}
    {calls : List Call} (h : tickPlacement v p r op = .ok (calls, true)) (s : PlacementState) :
    Call.placementToState s ∉ calls := by
  have hpre := placementToState_not_mem_pre p r (v.nodeByIdent p.nodeID) s
  simp only [tickPlacement] at h
  split_ifs at h
  · simp at h
  cases hst : p.stateCurrent with
  | pending =>
    simp only [hst, Except.ok.injEq, Prod.mk.injEq] at h
    obtain ⟨rfl, hd⟩ := h
    rw [placementPending_destroy_calls v hd]
    simpa using hpre
  | inactive =>
    simp only [hst, Except.ok.injEq, Prod.mk.injEq] at h
    obtain ⟨rfl, hd⟩ := h
    rw [placementInactive_destroy_calls v hd, List.append_nil]
    exact hpre
  | active => simp [hst, placementActive_keep] at h
  | dropped =>
    simp only [hst, Except.ok.injEq, Prod.mk.injEq] at h
    exact h.1 ▸ hpre
  | missing | unknown => simp [hst] at h

theorem tickPlacement_of_dropped {p : Placement} (hd : p.stateCurrent = .dropped) (r : Range)
    (op : Bool) :
    tickPlacement v p r op = .ok (replacingCalls p r ++ drainCalls (v.nodeByIdent p.nodeID) r, true) :=
  by simp [tickPlacement, hd]

/-- `tickPlacement` panics only on a `PsUnknown` placement whose node the roster finds. -/
theorem tickPlacement_error {p : Placement} {r : Range} {op : Bool} {e : Panic}
    (h : tickPlacement v p r op = .error e) :
    p.stateCurrent = .unknown ∧ (v.nodeByIdent p.nodeID).isSome ∧
      e = .unhandledPlacementState .unknown := by
  simp only [tickPlacement] at h
  split_ifs at h with hn
  cases hst : p.stateCurrent <;> simp only [hst, reduceCtorEq, Except.error.injEq] at h
  refine ⟨rfl, ?_, h.symm⟩
  rw [hst] at hn
  simpa [Option.isSome_iff_ne_none] using hn


/-! ## Placements left alone -/

/-- A placement `tickPlacement` leaves alone: its node is in the roster, it replaces no node or
one the range still has a placement on, its node is not being drained, and the node holds the
range in the placement's own state, `PsInactive` or `PsActive`, with the operation allowing no
change. -/
def Quiet (p : Placement) (r : Range) (op : Bool) : Prop :=
  ∃ n, v.nodeByIdent p.nodeID = some n ∧
    (p.isReplacing = "" ∨ r.placements.any (p.isReplacing == ·.nodeID) = true) ∧ n.wantDrain = false ∧
    (p.stateCurrent = .inactive ∧ n.get r.ident = some .inactive ∧
        v.mayActivate p r op = false ∧ v.mayDrop p r op = false ∨
      p.stateCurrent = .active ∧ n.get r.ident = some .active ∧ v.mayDeactivate p r op = false)

theorem replacingCalls_eq_nil (p : Placement) (r : Range) :
    replacingCalls p r = [] ↔
      p.isReplacing = "" ∨ r.placements.any (p.isReplacing == ·.nodeID) = true := by
  unfold replacingCalls
  split_ifs with h
  · simp only [List.cons_ne_nil, false_iff]
    tauto
  · simp only [true_iff]
    tauto

theorem drainCalls_eq_nil (n : NodeView) (r : Range) :
    drainCalls (some n) r = [] ↔ n.wantDrain = false := by
  cases h : n.wantDrain <;> simp [drainCalls, h]

theorem placementPending_calls (p : Placement) (ri : Option RemoteState) :
    (placementPending v p ri).1 ≠ [] := by
  rcases ri with _ | ⟨_ | _ | _ | _ | _ | _ | _ | _⟩ <;> simp [placementPending]

theorem placementInactive_quiet (p : Placement) (r : Range) (op : Bool) (ri : Option RemoteState) :
    (placementInactive v p r op ri).1 = [] ∧ (placementInactive v p r op ri).2 = false ↔
      ri = some .inactive ∧ v.mayActivate p r op = false ∧ v.mayDrop p r op = false := by
  unfold placementInactive
  cases ri with
  | none => cases v.failed p .activate <;> cases v.mayDrop p r op <;> simp
  | some s =>
    cases s
    case inactive => cases v.mayActivate p r op <;> cases v.mayDrop p r op <;> simp
    all_goals simp

theorem placementActive_quiet (p : Placement) (r : Range) (op : Bool) (ri : Option RemoteState) :
    (placementActive v p r op ri).1 = [] ∧ (placementActive v p r op ri).2 = false ↔
      ri = some .active ∧ v.mayDeactivate p r op = false := by
  unfold placementActive
  cases ri with
  | none => simp
  | some s =>
    cases s
    case active => cases v.mayDeactivate p r op <;> simp
    all_goals simp

/-- `tickPlacement` makes no call and keeps the placement exactly when the placement is quiet. -/
theorem tickPlacement_quiet_iff (p : Placement) (r : Range) (op : Bool) :
    tickPlacement v p r op = .ok ([], false) ↔ Quiet v p r op := by
  unfold tickPlacement Quiet
  rcases hn : v.nodeByIdent p.nodeID with _ | n <;> cases hs : p.stateCurrent <;>
    simp [hs, replacingCalls_eq_nil, drainCalls_eq_nil, placementPending_calls,
      placementInactive_quiet, placementActive_quiet, and_assoc]

end TickPlacement

/-! ## The verdict in the placement loop -/

/-- The placement loop marks every `PsDropped` placement it reaches for destruction. -/
theorem tickPlacements_dropped_mem {env : Env} {r : Range} {op : Bool} :
    ∀ {done ps qs : List Placement} {toDestroy : List Nat} {t : List (Placement × List Call)},
      tickPlacements env r op done ps = .ok (qs, toDestroy, t) →
      ∀ k p, ps[k]? = some p → p.stateCurrent = .dropped → done.length + k ∈ toDestroy
  | _, [], _, _, _, _, _, _, hk, _ => nomatch hk
  | done, p :: ps, qs, toDestroy, t, h, k, p', hk, hd => by
    obtain ⟨calls, d, toDestroy', t', hp, hl, rfl, rfl⟩ := tickPlacements_cons env h
    cases k with
    | zero =>
      obtain rfl : p = p' := Option.some.inj (List.getElem?_cons_zero ▸ hk)
      rw [tickPlacement_of_dropped env.view hd] at hp
      obtain ⟨-, rfl⟩ := Prod.mk.inj (Except.ok.inj hp)
      exact List.mem_cons_self _ _
    | succ k =>
      have hk' := tickPlacements_dropped_mem hl k p' (List.getElem?_cons_succ ▸ hk) hd
      rw [List.length_append, List.length_singleton, Nat.add_right_comm] at hk'
      split_ifs
      · exact List.mem_cons_of_mem _ hk'
      · exact hk'

/-- With the source's `tickPlacement`, and whatever the roster, the nodes and the operation say, a
range that reaches the placement loop with its last placement and another one `PsDropped` makes
`tickRange` panic: in the removal loop, or earlier on a `PsUnknown` placement. -/
theorem tickRange_panics_of_dropped {env : Env} {o o₁ : Orchestrator} {r r₁ : Range} {op : Bool}
    {init : List Placement} {last : Placement} (hu : r.state ≠ .unknown)
    (hs : tickState env o r = (o₁, r₁, true)) (hp : r₁.placements = init ++ [last])
    (hl : last.stateCurrent = .dropped) (ho : ∃ p ∈ init, p.stateCurrent = .dropped) :
    ∃ e, tickRange env o r op = .error e := by
  unfold tickRange
  rw [if_neg hu, hs]
  dsimp only [if_true]
  rcases hloop : tickPlacements env r₁ op [] r₁.placements with e | ⟨qs, toDestroy, t⟩
  · exact ⟨e, rfl⟩
  obtain ⟨p, hpi, hpd⟩ := ho
  obtain ⟨i, hi, rfl⟩ := List.getElem_of_mem hpi
  have hmem := tickPlacements_dropped_mem hloop
  have hlen : r₁.placements.length - 1 = init.length := by simp [hp]
  have hlast : r₁.placements.length - 1 ∈ toDestroy := by
    simpa [hlen] using hmem init.length last (by simp [hp]) hl
  have hother : i ∈ toDestroy := by
    simpa using hmem i init[i]
      (by rw [hp, List.getElem?_append_left hi, List.getElem?_eq_getElem hi]) hpd
  obtain ⟨e, he⟩ := tickPlacements_removal_fails env hloop hlast ⟨i, hother, by omega⟩
  exact ⟨e, by simp [he]⟩

/-- A subsuming range with two `PsDropped` placements: the first on node a, which the roster finds
draining and without the range, replacing a node the range has no placement on; the second on
node b, which the roster does not find. -/
theorem tickRange_panics_of_dropped_subsuming :
    ∃ e, tickRange ⟨fun _ => 1, fun _ _ => none, fun _ _ => none, fun _ _ => none, some [],
        fun _ _ => [], ⟨fun n => if n = "a" then some ⟨"a", true, fun _ => none⟩ else none,
          fun _ _ => false, fun _ _ _ => false, fun _ _ _ => false, fun _ _ _ => false⟩⟩
      ⟨[], [], [], []⟩
      ⟨1, .subsuming, [⟨"a", .dropped, "c"⟩, ⟨"b", .dropped, ""⟩]⟩ true = .error e :=
  @tickRange_panics_of_dropped _ ⟨[], [], [], []⟩ ⟨[], [], [], []⟩
    ⟨1, .subsuming, [⟨"a", .dropped, "c"⟩, ⟨"b", .dropped, ""⟩]⟩
    ⟨1, .subsuming, [⟨"a", .dropped, "c"⟩, ⟨"b", .dropped, ""⟩]⟩ true [⟨"a", .dropped, "c"⟩]
    ⟨"b", .dropped, ""⟩ (by decide) rfl rfl rfl ⟨_, List.mem_singleton_self _, rfl⟩

end Ranger.Orchestrator
