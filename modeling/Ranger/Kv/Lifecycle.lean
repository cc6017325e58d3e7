/-
The life of a range on a kv node. A handled request does one of six things, each with the checks
it passed (`Handled`, `handle_handled`). What a node holds for an ident is no range, or a range in
one state (`Node.stateOf`). A handled request leaves it as it was or moves it along one edge of
`Lifecycle` (`handle_lifecycle`). Without `Force` the edges are a `Give` of a range the node
does not hold or whose fetch failed, a `Serve` of a `FETCHED` range, a `Take` of a `READY` one and
a `Drop` of a `TAKEN` one; `Force` adds a `Serve` from any state and a `Drop` from any state but
`FETCHING`. Along every run the state of each range moves along these edges (`lifecycle_run`).

No edge leads to `FETCHING`: `Give` fetches the range's data before it adds the range, under the
node's mutex. So no node reachable from `New` holds a range in that state, and the refusal of
`Drop` to drop a `FETCHING` range never fires (`reachable_never_fetching`).
-/
import Ranger.Kv.Node

namespace Ranger.Kv

open Node

/-- The state in which the node holds range `id`, `none` when it does not hold it. -/
def Node.stateOf (n : Node) (id : RangeIdent) : Option StateRemote :=
  (n.data.lookup id).map (·.state)

/-- A state a `Give` leaves a range in: `READY` without parents, else `FETCHED` or
`FETCH_FAILED`. -/
def GivenState (s : StateRemote) : Prop := s = .ready ∨ s = .fetched ∨ s = .fetchFailed

/-- The moves of the state in which a node holds a range; `true` marks those that only a
`Serve` or a `Drop` with `Force` makes. -/
inductive Lifecycle : Bool → Option StateRemote → Option StateRemote → Prop
  /-- `Give` of a range the node does not hold. -/
  | give {force s} : GivenState s → Lifecycle force none (some s)
  /-- `Give` of a range whose fetch failed, which is removed and given again. -/
  | regive {force s} : GivenState s → Lifecycle force (some .fetchFailed) (some s)
  /-- `Serve` of a `FETCHED` range. -/
  | serve {force} : Lifecycle force (some .fetched) (some .ready)
  /-- `Take` of a `READY` range. -/
  | take {force} : Lifecycle force (some .ready) (some .taken)
  /-- `Drop` of a `TAKEN` range. -/
  | drop {force} : Lifecycle force (some .taken) none
  /-- `Serve` with `Force`. -/
  | forceServe {s} : Lifecycle true (some s) (some .ready)
  /-- `Drop` with `Force`. -/
  | forceDrop {s} : s ≠ .fetching → Lifecycle true (some s) none

/-- No move leads to `FETCHING`. -/
theorem Lifecycle.ne_fetching {b : Bool} {s t : Option StateRemote} (h : Lifecycle b s t) :
    t ≠ some .fetching := by
  cases h with
  | give hg | regive hg => rcases hg with rfl | rfl | rfl <;> simp
  | _ => simp

/-! ## What one request does -/

/-- What one handled request does to the node, with the checks it passed. -/
inductive Handled (n : Node) : Request → Node → Prop
  /-- Every error, and `Info`, `Dump` and `Get`. -/
  | same (req : Request) : Handled n req n
  /-- `Serve` of a `FETCHED` range, or of any range with `Force`. -/
  | serve {range : Option Pb.Ident} {force : Bool} {ident : RangeIdent} {rd : RangeData}
      (hg : n.getRangeData range = .ok (ident, rd)) (hs : rd.state = .fetched ∨ force = true) :
      Handled n (.serve range force) (n.setRangeData ident { rd with state := .ready })
  /-- `Take` of a `READY` range. -/
  | take {range : Option Pb.Ident} {ident : RangeIdent} {rd : RangeData}
      (hg : n.getRangeData range = .ok (ident, rd)) (hs : rd.state = .ready) :
      Handled n (.take range) (n.setRangeData ident { rd with state := .taken })
  /-- `Drop` of a range not `FETCHING`, `TAKEN` unless forced. -/
  | drop {range : Option Pb.Ident} {force : Bool} {ident : RangeIdent} {rd : RangeData} {n' : Node}
      (hg : n.getRangeData range = .ok (ident, rd)) (hf : rd.state ≠ .fetching)
      (hs : rd.state = .taken ∨ force = true) (hr : n.remove ident = some n') :
      Handled n (.drop range force) n'
  /-- `Put` to the `READY` range that `Ranges.Find` picks for the key. -/
  | put {k : Bytes} {value : Option Bytes} {ident : RangeIdent} {rd : RangeData}
      (hf : n.findRangeData k = .ok (.ok (ident, rd))) (hs : rd.state = .ready) :
      Handled n (.put k value) (n.setRangeData ident { rd with data := putValue rd.data k value })
  /-- `Give` of a range the node does not hold, or holds with a failed fetch and first removes,
  with the data fetched for it. -/
  | give {req : GiveRequest} {fetches : List Fetch} {rm : RangeMeta} {rd : RangeData} {n₁ : Node}
      (hg : RangeData.given rm req.parents fetches = .ok rd)
      (hc : (n₁ = n ∧ n.data.lookup rm.ident = none) ∨ ∃ rd₀, n.data.lookup rm.ident = some rd₀ ∧
        rd₀.state = .fetchFailed ∧ n.remove rm.ident = some n₁) :
      Handled n (.give req fetches) (n₁.add rm rd)

theorem handle_handled {n n' : Node} {req : Request} {r : Except NodeError Response}
    (h : n.handle req = .ok (r, n')) : Handled n req n' := by
  cases req with
  | give req fetches =>
    simp only [handle] at h
    split at h
    · cases h
    next hg =>
    cases h
    rcases give_ok hg with rfl | ⟨rm, rd, n₁, hg', rfl, hc⟩
    · exact .same _
    · exact .give hg' hc
  | serve range force =>
    simp only [handle, serve, Except.ok.injEq, Prod.mk.injEq] at h
    obtain ⟨-, rfl⟩ := h
    rcases moveState_node (n := n) range _ .aborted _ .ready with h | ⟨_, _, hg, hs, h⟩ <;> rw [h]
    · exact .same _
    · exact .serve hg (by simpa using hs)
  | take range =>
    simp only [handle, take, Except.ok.injEq, Prod.mk.injEq] at h
    obtain ⟨-, rfl⟩ := h
    rcases moveState_node (n := n) range _ .failedPrecondition _ .taken with h | ⟨_, _, hg, hs, h⟩
      <;> rw [h]
    · exact .same _
    · exact .take hg (by simpa using hs)
  | drop range force =>
    simp only [handle] at h
    split at h
    · cases h
    next hd =>
    cases h
    rcases drop_ok hd with rfl | ⟨_, _, hg, hf, hs, hr⟩
    · exact .same _
    · exact .drop hg hf hs hr
  | put k value =>
    simp only [handle] at h
    split at h
    · cases h
    next hp =>
    cases h
    rcases put_ok hp with rfl | ⟨_, _, hf, hs, rfl⟩
    · exact .same _
    · exact .put hf hs
  | info =>
    simp only [handle] at h
    split at h <;> cases h
    exact .same _
  | dump range => cases h; exact .same _
  | get k =>
    simp only [handle] at h
    split at h <;> cases h
    exact .same _

namespace Node

variable {n n' : Node} {id : RangeIdent}

theorem stateOf_of_lookup {rd : RangeData} (h : n.data.lookup id = some rd) :
    n.stateOf id = some rd.state := by
  simp [stateOf, h]

@[simp] theorem stateOf_setRangeData (ident : RangeIdent) (rd : RangeData) :
    (n.setRangeData ident rd).stateOf id = if id = ident then some rd.state else n.stateOf id := by
  by_cases h : id = ident
  · subst h; simp [stateOf, AList.lookup_insert]
  · simp [stateOf, AList.lookup_insert_ne h, h]

@[simp] theorem stateOf_add (rm : RangeMeta) (rd : RangeData) :
    (n.add rm rd).stateOf id = if id = rm.ident then some rd.state else n.stateOf id := by
  by_cases h : id = rm.ident
  · subst h; simp [stateOf, AList.lookup_insert]
  · simp [stateOf, AList.lookup_insert_ne h, h]

theorem stateOf_remove {ident : RangeIdent} (h : n.remove ident = some n') :
    n'.stateOf id = if id = ident then none else n.stateOf id := by
  rw [stateOf, (remove_spec h).1]
  by_cases h' : id = ident
  · subst h'; simp [AList.lookup_erase]
  · simp [AList.lookup_erase_ne h', h', stateOf]

end Node

theorem given_state {rm : RangeMeta} {parents : List Pb.Placement} {fetches : List Fetch}
    {rd : RangeData} (h : RangeData.given rm parents fetches = .ok rd) : GivenState rd.state := by
  unfold RangeData.given RangeData.fetchMany at h
  split at h
  · cases h; exact .inl rfl
  split at h
  · cases h
  · cases h; exact .inr (.inr rfl)
  · cases h
    split <;> simp [GivenState]

/-- A handled request leaves the state of every range as it was, or moves it along one edge of
the lifecycle; along a forced edge only if it is a `Serve` or `Drop` with `Force`. -/
theorem handle_lifecycle {n n' : Node} {req : Request} {r : Except NodeError Response}
    (h : n.handle req = .ok (r, n')) (id : RangeIdent) :
    n'.stateOf id = n.stateOf id ∨ Lifecycle (!req.forceFree) (n.stateOf id) (n'.stateOf id) := by
  cases handle_handled h with
  | same => exact .inl rfl
  | @serve _ force ident rd hg hs =>
    rw [stateOf_setRangeData]
    split_ifs with hid
    · subst hid
      rw [stateOf_of_lookup (getRangeData_ok hg).1]
      rcases hs with hs | rfl
      · exact .inr (hs ▸ .serve)
      · exact .inr .forceServe
    · exact .inl rfl
  | take hg hs =>
    rw [stateOf_setRangeData]
    split_ifs with hid
    · subst hid
      exact .inr (by rw [stateOf_of_lookup (getRangeData_ok hg).1, hs]; exact .take)
    · exact .inl rfl
  | drop hg hf hs hr =>
    rw [stateOf_remove hr]
    split_ifs with hid
    · subst hid
      rw [stateOf_of_lookup (getRangeData_ok hg).1]
      rcases hs with hs | rfl
      · exact .inr (hs ▸ .drop)
      · exact .inr (.forceDrop hf)
    · exact .inl rfl
  | put hf _ =>
    left
    rw [stateOf_setRangeData]
    split_ifs with hid
    · subst hid; exact (stateOf_of_lookup (findRangeData_ok hf).1).symm
    · rfl
  | give hg hc =>
    rw [stateOf_add]
    split_ifs with hid
    · subst hid
      rcases hc with ⟨rfl, hl⟩ | ⟨rd₀, hl, hs, -⟩
      · exact .inr (by simpa [stateOf, hl] using Lifecycle.give (given_state hg))
      · exact .inr (by simpa [stateOf, hl, hs] using Lifecycle.regive (given_state hg))
    · rcases hc with ⟨rfl, -⟩ | ⟨-, -, -, hr⟩
      · exact .inl rfl
      · exact .inl (by rw [stateOf_remove hr, if_neg hid])

/-! ## Runs -/

/-- Every error of the lookup has code `InvalidArgument`. -/
theorem getRangeData_error {n : Node} {range : Option Pb.Ident} {e : NodeError}
    (h : n.getRangeData range = .error e) : ∃ m, e = .status .invalidArgument m := by
  unfold getRangeData at h
  repeat' split at h
  all_goals cases h
  all_goals exact ⟨_, rfl⟩

/-- No node reachable from `New` holds a range in `FETCHING`, so `Drop` never answers that it
does not drop `FETCHING` ranges. -/
theorem reachable_never_fetching {n : Node} (hn : n.Reachable) :
    (∀ id, n.stateOf id ≠ some .fetching) ∧ ∀ range force r n', n.drop range force = .ok (r, n') →
      r ≠ .error (.status .unimplemented "dropping ranges in the FETCHING state is not supported yet") := by
  have hs : ∀ id, n.stateOf id ≠ some .fetching := by
    intro id
    unfold Node.Reachable at hn
    induction hn with
    | refl => simp [stateOf, Node.new]
    | tail _ hs ih =>
      obtain ⟨req, -, r, h⟩ := hs
      rcases handle_lifecycle h id with he | hl
      · rwa [he]
      · exact hl.ne_fetching
  refine ⟨hs, fun range force r n' h he => ?_⟩
  unfold drop at h
  split at h
  · next e hg =>
    cases h
    obtain ⟨m, rfl⟩ := getRangeData_error hg
    cases he
  · next ident rd hg =>
    split_ifs at h with hf
    · exact hs ident (by simp [stateOf, (getRangeData_ok hg).1, hf])
    · cases h; cases he
    · split at h
      · cases h
      · cases h; cases he

/-- A range given to a new node with one parent whose `Dump` failed is held `FETCH_FAILED`. -/
theorem reachable_never_fetching_failed :
    (∀ id, (Node.new.add ⟨⟨List.replicate 40 0, rfl⟩, [], []⟩ ⟨∅, .fetchFailed⟩).stateOf id ≠
      some .fetching) ∧
    ∀ range force r n', (Node.new.add ⟨⟨List.replicate 40 0, rfl⟩, [], []⟩ ⟨∅, .fetchFailed⟩).drop
      range force = .ok (r, n') →
      r ≠ .error (.status .unimplemented "dropping ranges in the FETCHING state is not supported yet") :=
  reachable_never_fetching (.single ⟨.give ⟨some ⟨none, [], []⟩, [⟨some ⟨none, [], []⟩, "a"⟩]⟩
    [⟨"a", .error "unavailable"⟩], List.Perm.refl _, _, rfl⟩)

end Ranger.Kv
