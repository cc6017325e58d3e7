/-
The reconciler of `pkg/reconciler/reconciler.go`. `nodeInfo` pairs the placements the keyspace
expects on a node (`PlacementsByNodeID`) with the ranges the node reports, in a map
`states[rID]` of two pointers, and then makes one decision per range id of the map: a range on
both sides whose states differ takes the node's state, and a range the node lost (at position 0,
not `SpPending`) moves to `SpGone`.

The pointers are `&pbnid` and `&rInfo`, taken of the loop variables. Go binds one variable for a
whole `for _, x := range xs` loop before Go 1.22 (and in a module whose `go.mod` says an older
version); from 1.22 each iteration has its own. `LoopVar` names the two, and the model takes it as
a parameter. With one shared variable every pointer ends on the last element, so every decision
reads the last expected placement and the last reported range (`nodeInfo_compares_last_records`);
with one variable per iteration every decision reads its range's own records
(`nodeInfo_perIteration`).

The keyspace calls (`PlacementsByNodeID`, `PlacementToState`), `RangeInfo.State.ToStatePlacement`
and the states `SpPending` and `SpGone` are not under src/; they enter as the record `Env`. The
states of the placements are a map from a placement's pointer to its state, which
`PlacementToState` updates at that pointer only; its errors are logged, so it returns the state the
placement is left in. `nodeInfo` returns the `PlacementToState` calls it makes, in order.
-/
import Ranger.Keyspace.Basic
import Mathlib.Data.List.Dedup

namespace Ranger.Reconciler

open Keyspace (Ident)

/-! ## Records -/

/-- `ranje.PBNID`: a placement the keyspace expects on a node, with the ident of its range, the
placement (a pointer) and its position among the range's placements. -/
structure PBNID where
  rangeID : Ident
  placement : Nat
  position : Nat
deriving DecidableEq, Repr

/-- `roster.RangeInfo`: a range a node reports, with the state it reports. -/
structure RangeInfo (R : Type) where
  rangeID : Ident
  state : R
deriving DecidableEq, Repr

/-- `roster.NodeInfo`. -/
structure NodeInfo (R : Type) where
  nodeID : String
  ranges : List (RangeInfo R)
  expired : Bool

/-- The panics of `nodeInfo`. -/
inductive Panic
  /-- `"expired node with non-zero ranges"` -/
  | expiredWithRanges
  /-- `"expected and actual state are both nil?"` -/
  | bothNil
deriving DecidableEq, Repr

/-- What `nodeInfo` calls that is not under src/: `S` is the placement state, `R` the state a node
reports. `placementToState cur new` is the state `PlacementToState` leaves a placement in. -/
structure Env (S R : Type) where
  placementsByNodeID : String → List PBNID
  toStatePlacement : R → S
  placementToState : S → S → S
  spPending : S
  spGone : S

/-- How Go binds the variable of `for _, x := range xs`. -/
inductive LoopVar
  /-- One variable for the whole loop: Go before 1.22. -/
  | shared
  /-- One variable per iteration: Go 1.22 and later. -/
  | perIteration
deriving DecidableEq, Repr

/-- What `&x`, taken while `x` is `x`, points to once `for _, x := range xs` is over. -/
def LoopVar.pointee {α : Type} : LoopVar → List α → α → α
  | .shared, xs, x => xs.getLast?.getD x
  | .perIteration, _, x => x

@[simp] theorem LoopVar.pointee_perIteration {α : Type} (xs : List α) :
    LoopVar.perIteration.pointee xs = fun x => x := rfl

/-- A value of `states`: what its two pointers point to. -/
@[ext]
structure States (R : Type) where
  expected : Option PBNID
  actual : Option (RangeInfo R)

/-! ## `nodeInfo` -/

variable {S R : Type}

/-- The first loop of `nodeInfo`: `r := states[rID]; r.expected = &pbnid; states[rID] = r`, with
`p` what `&pbnid` points to. -/
def collectExpected (p : PBNID → PBNID) : (Ident → States R) → List PBNID → Ident → States R
  | m, [] => m
  | m, x :: xs => collectExpected p
      (Function.update m x.rangeID { m x.rangeID with expected := some (p x) }) xs

/-- The second loop of `nodeInfo`: `r := states[rID]; r.actual = &rInfo; states[rID] = r`. -/
def collectActual (p : RangeInfo R → RangeInfo R) :
    (Ident → States R) → List (RangeInfo R) → Ident → States R
  | m, [] => m
  | m, x :: xs => collectActual p
      (Function.update m x.rangeID { m x.rangeID with actual := some (p x) }) xs

/-- `r.ks.PlacementToState(p, s)`: the call, and the placement states after it. -/
def Env.call (env : Env S R) (st : Nat → S) (p : Nat) (s : S) : List (Nat × S) × (Nat → S) :=
  ([(p, s)], Function.update st p (env.placementToState (st p) s))

/-- One iteration of the last loop of `nodeInfo`, on the placement states before it. -/
def decision [DecidableEq S] (env : Env S R) (st : Nat → S) (pair : States R) :
    Except Panic (List (Nat × S) × (Nat → S)) :=
  match pair.expected, pair.actual with
  | some e, some a =>
    if st e.placement ≠ env.toStatePlacement a.state then
      .ok (env.call st e.placement (env.toStatePlacement a.state))
    else .ok ([], st)
  | some e, none =>
    if e.position = 0 ∧ st e.placement ≠ env.spPending then .ok (env.call st e.placement env.spGone)
    else .ok ([], st)
  | none, some _ => .ok ([], st)
  | none, none => .error .bothNil

/-- The last loop of `nodeInfo`, over the keys of `states` in the order `ids` Go visits them. -/
def decisions [DecidableEq S] (env : Env S R) (m : Ident → States R) :
    (Nat → S) → List Ident → Except Panic (List (Nat × S))
  | _, [] => .ok []
  | st, id :: ids => match decision env st (m id) with
    | .error p => .error p
    | .ok (cs, st') => match decisions env m st' ids with
      | .error p => .error p
      | .ok cs' => .ok (cs ++ cs')

/-- The keys of `states`: the range ids of the expected placements and of the reported ranges. -/
def rangeIDs (pbnids : List PBNID) (ranges : List (RangeInfo R)) : List Ident :=
  (pbnids.map (·.rangeID) ++ ranges.map (·.rangeID)).dedup

/-- `Reconciler.nodeInfo`, with `sem` the binding of the loop variables, `order` the order in
which Go visits the map, and `st` the placement states. -/
def nodeInfo [DecidableEq S] (env : Env S R) (sem : LoopVar) (order : List Ident) (st : Nat → S)
    (nInfo : NodeInfo R) : Except Panic (List (Nat × S)) :=
  let pbnids := env.placementsByNodeID nInfo.nodeID
  let m := collectExpected (sem.pointee pbnids) (fun _ => ⟨none, none⟩) pbnids
  if nInfo.expired && !nInfo.ranges.isEmpty then .error .expiredWithRanges
  else decisions env (collectActual (sem.pointee nInfo.ranges) m nInfo.ranges) st order

/-! ## The decisions the reconciler is meant to make -/

/-- The last of `xs` with range id `id`: a range's own record. -/
def lastWith {α : Type} (rangeID : α → Ident) (xs : List α) (id : Ident) : Option α :=
  (xs.filter fun x => rangeID x = id).getLast?

/-- The decision for a range whose own expected placement is `e?` and own reported range `a?`,
as the reconciler's comments describe it. -/
def ownCalls [DecidableEq S] (env : Env S R) (st : Nat → S) :
    Option PBNID → Option (RangeInfo R) → List (Nat × S)
  | some e, some a =>
    if st e.placement = env.toStatePlacement a.state then []
    else [(e.placement, env.toStatePlacement a.state)]
  | some e, none =>
    if e.position = 0 ∧ st e.placement ≠ env.spPending then [(e.placement, env.spGone)] else []
  | none, _ => []

/-- The calls for range `id` decided from its own records, the last expected placement and the
last reported range with its id, against the placement states `nodeInfo` starts from. -/
def ownRecordCalls [DecidableEq S] (env : Env S R) (st : Nat → S) (pbnids : List PBNID)
    (ranges : List (RangeInfo R)) (id : Ident) : List (Nat × S) :=
  ownCalls env st (lastWith (·.rangeID) pbnids id) (lastWith (·.rangeID) ranges id)

/-! ## The collecting loops -/

theorem lastWith_cons {α : Type} (f : α → Ident) (x : α) (xs : List α) (id : Ident) :
    lastWith f (x :: xs) id = (lastWith f xs id).or (if f x = id then some x else none) := by
  unfold lastWith
  by_cases hx : f x = id
  · rw [List.filter_cons_of_pos (by simpa using hx), List.getLast?_cons]
    cases (xs.filter fun x => f x = id).getLast? <;> simp [hx]
  · rw [List.filter_cons_of_neg (by simpa using hx)]
    simp [hx]

theorem lastWith_eq_some {α : Type} {f : α → Ident} {xs : List α} {id : Ident} {x : α}
    (h : lastWith f xs id = some x) : x ∈ xs ∧ f x = id := by
  simpa using List.mem_of_getLast?_eq_some h

theorem lastWith_isSome {α : Type} {f : α → Ident} {xs : List α} {id : Ident} :
    (lastWith f xs id).isSome ↔ id ∈ xs.map f := by
  simp [lastWith, Option.isSome_iff_ne_none, List.getLast?_eq_none_iff, List.filter_eq_nil_iff]

/-- The first loop leaves in `states[rID].expected` what `&pbnid` points to for the last
placement of range `rID`. -/
theorem collectExpected_expected (p : PBNID → PBNID) (m : Ident → States R) (xs : List PBNID)
    (id : Ident) :
    (collectExpected p m xs id).expected =
      ((lastWith (·.rangeID) xs id).map p).or (m id).expected := by
  induction xs generalizing m with
  | nil => simp [collectExpected, lastWith]
  | cons x xs ih =>
    rw [collectExpected, ih, lastWith_cons]
    by_cases hx : x.rangeID = id
    · subst hx; cases lastWith (·.rangeID) xs x.rangeID <;> simp
    · simp [hx, Function.update_noteq (Ne.symm hx)]

theorem collectExpected_actual (p : PBNID → PBNID) (m : Ident → States R) (xs : List PBNID)
    (id : Ident) : (collectExpected p m xs id).actual = (m id).actual := by
  induction xs generalizing m with
  | nil => rfl
  | cons x xs ih =>
    rw [collectExpected, ih]
    by_cases hx : x.rangeID = id
    · subst hx; simp
    · simp [Function.update_noteq (Ne.symm hx)]

theorem collectActual_actual (p : RangeInfo R → RangeInfo R) (m : Ident → States R)
    (xs : List (RangeInfo R)) (id : Ident) :
    (collectActual p m xs id).actual = ((lastWith (·.rangeID) xs id).map p).or (m id).actual := by
  induction xs generalizing m with
  | nil => simp [collectActual, lastWith]
  | cons x xs ih =>
    rw [collectActual, ih, lastWith_cons]
    by_cases hx : x.rangeID = id
    · subst hx; cases lastWith (·.rangeID) xs x.rangeID <;> simp
    · simp [hx, Function.update_noteq (Ne.symm hx)]

theorem collectActual_expected (p : RangeInfo R → RangeInfo R) (m : Ident → States R)
    (xs : List (RangeInfo R)) (id : Ident) :
    (collectActual p m xs id).expected = (m id).expected := by
  induction xs generalizing m with
  | nil => rfl
  | cons x xs ih =>
    rw [collectActual, ih]
    by_cases hx : x.rangeID = id
    · subst hx; simp
    · simp [Function.update_noteq (Ne.symm hx)]

/-- With one variable per iteration, `states[rID]` holds range `rID`'s own records. -/
theorem collect_perIteration (pbnids : List PBNID) (ranges : List (RangeInfo R)) (id : Ident) :
    collectActual (LoopVar.perIteration.pointee ranges)
        (collectExpected (LoopVar.perIteration.pointee pbnids) (fun _ => ⟨none, none⟩) pbnids)
        ranges id =
      ⟨lastWith (·.rangeID) pbnids id, lastWith (·.rangeID) ranges id⟩ := by
  ext1 <;> simp [collectActual_expected, collectExpected_expected, collectActual_actual,
    collectExpected_actual]

/-! ## The decision loop -/

section Decisions

variable [DecidableEq S] (env : Env S R)

theorem ownCalls_congr {st st' : Nat → S} {e? : Option PBNID} (a? : Option (RangeInfo R))
    (h : ∀ e ∈ e?, st e.placement = st' e.placement) :
    ownCalls env st e? a? = ownCalls env st' e? a? := by
  rcases e? with _ | e <;> rcases a? with _ | a <;> simp [ownCalls, h]

/-- A decision on a pair with a record makes the calls `ownCalls` gives for the pair, and changes
the state of its expected placement only. -/
theorem decision_eq (st : Nat → S) {e? : Option PBNID} {a? : Option (RangeInfo R)}
    (h : e?.isSome ∨ a?.isSome) :
    ∃ st', decision env st ⟨e?, a?⟩ = .ok (ownCalls env st e? a?, st') ∧
      ∀ p, (∀ e ∈ e?, e.placement ≠ p) → st' p = st p := by
  rcases e? with _ | e <;> rcases a? with _ | a
  · simp at h
  · exact ⟨st, rfl, fun _ _ => rfl⟩
  · by_cases hc : e.position = 0 ∧ st e.placement ≠ env.spPending
    · refine ⟨(env.call st e.placement env.spGone).2, by simp [decision, ownCalls, hc, Env.call],
        fun p hp => Function.update_noteq (hp e rfl).symm _ _⟩
    · exact ⟨st, by simp [decision, ownCalls, hc], fun _ _ => rfl⟩
  · by_cases hc : st e.placement = env.toStatePlacement a.state
    · exact ⟨st, by simp [decision, ownCalls, hc], fun _ _ => rfl⟩
    · refine ⟨(env.call st e.placement (env.toStatePlacement a.state)).2,
        by simp [decision, ownCalls, hc, Env.call],
        fun p hp => Function.update_noteq (hp e rfl).symm _ _⟩

/-- The decision loop over distinct range ids, each with a record and with expected placements
that differ between ids, makes every id's `ownCalls` on the states it started from. -/
theorem decisions_eq (m : Ident → States R) (st₀ : Nat → S) (E : Ident → Option PBNID)
    (A : Ident → Option (RangeInfo R)) :
    ∀ (ids : List Ident) (st : Nat → S), ids.Nodup →
      (∀ id ∈ ids, m id = ⟨E id, A id⟩ ∧ ((E id).isSome ∨ (A id).isSome)) →
      (∀ i ∈ ids, ∀ j ∈ ids, i ≠ j → ∀ e ∈ E i, ∀ e' ∈ E j, e.placement ≠ e'.placement) →
      (∀ id ∈ ids, ∀ e ∈ E id, st e.placement = st₀ e.placement) →
      decisions env m st ids = .ok (ids.flatMap fun id => ownCalls env st₀ (E id) (A id))
  | [], _, _, _, _, _ => rfl
  | id :: ids, st, hnd, hpair, hdist, hst => by
    obtain ⟨hm, hs⟩ := hpair id (List.mem_cons_self _ _)
    obtain ⟨st', hd, hframe⟩ := decision_eq env st hs
    have hnd' := List.nodup_cons.mp hnd
    have hst' : ∀ j ∈ ids, ∀ e ∈ E j, st' e.placement = st₀ e.placement := fun j hj e he => by
      rw [hframe _ fun e₀ he₀ => hdist id (List.mem_cons_self _ _) j (List.mem_cons_of_mem _ hj)
        (fun h => hnd'.1 (h ▸ hj)) e₀ he₀ e he]
      exact hst j (List.mem_cons_of_mem _ hj) e he
    rw [decisions, hm, hd]
    simp only
    rw [decisions_eq m st₀ E A ids st' hnd'.2 (fun j hj => hpair j (List.mem_cons_of_mem _ hj))
      (fun i hi j hj => hdist i (List.mem_cons_of_mem _ hi) j (List.mem_cons_of_mem _ hj)) hst',
      ownCalls_congr env _ (hst id (List.mem_cons_self _ _)), List.flatMap_cons]

/-- With one variable per iteration, and placements listed once each, `nodeInfo` makes exactly
the calls the reconciler's comments describe: per range id, in the order Go visits the map, the
decision on that range's own records. -/
theorem nodeInfo_perIteration (st : Nat → S) (nInfo : NodeInfo R) (order : List Ident)
    (horder : order.Perm (rangeIDs (env.placementsByNodeID nInfo.nodeID) nInfo.ranges))
    (hplacements : ((env.placementsByNodeID nInfo.nodeID).map (·.placement)).Nodup)
    (hlive : nInfo.expired = false ∨ nInfo.ranges = []) :
    nodeInfo env .perIteration order st nInfo =
      .ok (order.flatMap
        (ownRecordCalls env st (env.placementsByNodeID nInfo.nodeID) nInfo.ranges)) := by
  have hcond : (nInfo.expired && !nInfo.ranges.isEmpty) = false := by
    rcases hlive with h | h <;> simp [h]
  rw [nodeInfo]
  simp only [hcond, Bool.false_eq_true, if_false]
  refine decisions_eq env _ st _ _ order st (horder.nodup_iff.mpr (List.nodup_dedup _))
    (fun id hid => ⟨collect_perIteration _ _ id, ?_⟩) (fun i _ j _ hij e he e' he' hp => hij ?_)
    (fun _ _ _ _ => rfl)
  · have := horder.subset hid
    simp only [rangeIDs, List.mem_dedup, List.mem_append] at this
    simpa [lastWith_isSome] using this
  · obtain ⟨hm, rfl⟩ := lastWith_eq_some he
    obtain ⟨hm', rfl⟩ := lastWith_eq_some he'
    rw [List.inj_on_of_nodup_map hplacements hm hm' hp]

end Decisions

/-! ## Two ranges on one node -/

/-- A node `n` expected to hold ranges 1 and 2, at placements 1 and 2 and position 0; states are
their names, and `PlacementToState` always succeeds. -/
def twoRangeEnv : Env String String :=
  ⟨fun _ => [⟨⟨[], 1⟩, 1, 0⟩, ⟨⟨[], 2⟩, 2, 0⟩], id, fun _ s => s, "SpPending", "SpGone"⟩

/-- Node `n` reports range 1 in `SpTaken` and range 2 in `SpReady`. -/
def twoRangeInfo : NodeInfo String := ⟨"n", [⟨⟨[], 1⟩, "SpTaken"⟩, ⟨⟨[], 2⟩, "SpReady"⟩], false⟩

theorem nodeInfo_perIteration_two_ranges :
    [⟨[], 2⟩, ⟨[], 1⟩].Perm
      (rangeIDs (twoRangeEnv.placementsByNodeID twoRangeInfo.nodeID) twoRangeInfo.ranges) ∧
    ((twoRangeEnv.placementsByNodeID twoRangeInfo.nodeID).map (·.placement)).Nodup ∧
    (twoRangeInfo.expired = false ∨ twoRangeInfo.ranges = []) ∧
    nodeInfo twoRangeEnv .perIteration [⟨[], 2⟩, ⟨[], 1⟩] (fun _ => "SpReady") twoRangeInfo =
      .ok ([⟨[], 2⟩, ⟨[], 1⟩].flatMap (ownRecordCalls twoRangeEnv (fun _ => "SpReady")
        (twoRangeEnv.placementsByNodeID twoRangeInfo.nodeID) twoRangeInfo.ranges)) :=
  ⟨by decide, by decide, .inl rfl,
    nodeInfo_perIteration _ _ _ _ (by decide) (by decide) (.inl rfl)⟩

/-- With both placements `SpReady`, the reconciler should move the first to `SpTaken`. Under one
shared loop variable both decisions, in either order, compare the second range's records, and no
call is made. -/
theorem nodeInfo_compares_last_records :
    rangeIDs (twoRangeEnv.placementsByNodeID "n") twoRangeInfo.ranges = [⟨[], 1⟩, ⟨[], 2⟩] ∧
    [⟨[], 1⟩, ⟨[], 2⟩].flatMap (ownRecordCalls twoRangeEnv (fun _ => "SpReady")
        (twoRangeEnv.placementsByNodeID "n") twoRangeInfo.ranges) = [(1, "SpTaken")] ∧
    nodeInfo twoRangeEnv .shared [⟨[], 1⟩, ⟨[], 2⟩] (fun _ => "SpReady") twoRangeInfo = .ok [] ∧
    nodeInfo twoRangeEnv .shared [⟨[], 2⟩, ⟨[], 1⟩] (fun _ => "SpReady") twoRangeInfo = .ok [] := by
  decide

end Ranger.Reconciler
