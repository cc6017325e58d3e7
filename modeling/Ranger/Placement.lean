/-
`DurablePlacement.ToState` (`pkg/ranje`): the controller-side state machine of a placement. A call
checks the transition, writes the new state, and persists it with `p.rang.Put()`; when that fails
it writes the old state back and returns an error. The result of `Put()` enters as an input.

A failed call always leaves `State` as it was. It also leaves `NodeID` as it was, with one
exception: the `Taken → Dropped` branch clears `NodeID` before `Put()`, and the rewind after a
failed `Put()` restores only `State`.

Along every run of calls that does not panic, `State` moves only along the edges of the diagram
the if-chain implements (`Transition`); from `NewPlacement`'s `SpPending` it never reaches
`SpFetchFailed`, whose two transitions panic, and a `SpDropped` placement has no `NodeID`
(`newPlacement_run`).

The controller's `Node.Give` sends the request to a kv node, then mirrors the state the node
answers on its new placement with `ToState` calls. A kv node answers `READY`, `FETCHED` or
`FETCH_FAILED` and nothing else (its fetches run under its mutex before it answers), so the
controller never reaches its own panic on an unexpected state, nor its `FETCHING` branch. With
every `Put()` succeeding, the new placement reaches `SpReady` or `SpFetched`; but a `FETCH_FAILED`
answer, which a node gives whenever a parent's `Dump` failed, drives the placement from
`SpFetching` to `SpFetchFailed`, a transition `ToState` allows and panics on (`give_mirrored`).
-/
import Ranger.Key
import Ranger.Kv.Lifecycle

namespace Ranger.Placement

/-- `StatePlacement`, whose declaration is not under src/: the states `ToState` names. -/
inductive StatePlacement
  | unknown | pending | fetching | fetched | fetchFailed | ready | taken | dropped
deriving DecidableEq, Repr

/-- The fields of `DurablePlacement` that `ToState` reads and writes. -/
structure DurablePlacement where
  nodeID : String
  state : StatePlacement
deriving DecidableEq, Repr

/-- The errors `ToState` returns. -/
inductive PlacementError
  /-- `"can't transition placement into SpUnknown"` -/
  | intoUnknown
  /-- `"can't transition placement out of SpDropped"` -/
  | outOfDropped
  /-- `"invalid placement state transition: %s -> %s"` -/
  | invalid (old new : StatePlacement)
  /-- `"while persisting placement: %s"` -/
  | persisting (err : String)
deriving DecidableEq, Repr

/-- The panics of `ToState`, on transitions it allows but does not implement. -/
inductive PlacementPanic
  /-- `"placement state transition not implemented: fetching -> fetch_failed"` -/
  | fetchingToFetchFailed
  /-- `"placement state transition not implemented: fetch_failed -> pending"` -/
  | fetchFailedToPending
deriving DecidableEq, Repr

/-- The if-chain of `ToState` on `old` and `new`: whether the transition is allowed (`ok`), and
the placement after the branch's own writes. -/
def check (p : DurablePlacement) (new : StatePlacement) :
    Except PlacementPanic (Bool × DurablePlacement) :=
  match p.state, new with
  | .pending, .fetching | .pending, .ready => .ok (true, p)
  | .fetching, .fetched => .ok (true, p)
  | .fetching, .fetchFailed => .error .fetchingToFetchFailed
  | .fetched, .ready => .ok (true, p)
  | .fetchFailed, .pending => .error .fetchFailedToPending
  | .ready, .taken => .ok (true, p)
  | .taken, .dropped => .ok (true, { p with nodeID := "" })
  | .taken, .ready => .ok (true, p)
  | _, _ => .ok (false, p)

/-- `DurablePlacement.ToState(new)`, where `put` is the error `p.rang.Put()` returns, if any: the
error `ToState` returns, if any, and the placement it leaves. -/
def toState (p : DurablePlacement) (new : StatePlacement) (put : Option String) :
    Except PlacementPanic (Option PlacementError × DurablePlacement) :=
  if new = .unknown then .ok (some .intoUnknown, p)
  else if p.state = .dropped then .ok (some .outOfDropped, p)
  else match check p new with
    | .error e => .error e
    | .ok (false, p') => .ok (some (.invalid p.state new), p')
    | .ok (true, p') =>
      match put with
      | some err => .ok (some (.persisting err), { p' with state := p.state })
      | none => .ok (none, { p' with state := new })

theorem check_eq {p p' : DurablePlacement} {new : StatePlacement} {ok : Bool}
    (h : check p new = .ok (ok, p')) :
    p' = p ∨ ok = true ∧ p.state = .taken ∧ new = .dropped ∧ p' = { p with nodeID := "" } := by
  unfold check at h
  split at h <;> cases h
  all_goals first | exact .inl rfl | exact .inr ⟨rfl, ‹_›, rfl, rfl⟩

/-- A `ToState` call that returns an error leaves `State` as it was, and `NodeID` as it was unless
the call was `Taken → Dropped` and `Put()` failed, which leaves `NodeID` empty. -/
theorem toState_error_frame {p p' : DurablePlacement} {new : StatePlacement} {put : Option String}
    {err : PlacementError} (h : toState p new put = .ok (some err, p')) :
    p'.state = p.state ∧
      (p'.nodeID = p.nodeID ∨ p.state = .taken ∧ new = .dropped ∧ put.isSome ∧ p'.nodeID = "") := by
  unfold toState at h
  split_ifs at h
  · cases h; exact ⟨rfl, .inl rfl⟩
  · cases h; exact ⟨rfl, .inl rfl⟩
  · split at h
    · cases h
    · next hc =>
      cases h
      rcases check_eq hc with rfl | ⟨h, -⟩
      · exact ⟨rfl, .inl rfl⟩
      · cases h
    · next hc =>
      split at h <;> cases h
      rcases check_eq hc with rfl | ⟨-, ht, hd, rfl⟩
      · exact ⟨rfl, .inl rfl⟩
      · exact ⟨rfl, .inr ⟨ht, hd, rfl, rfl⟩⟩

/-- A `ToState` call that returns nil moves the placement to the new state. -/
theorem toState_ok_state {p p' : DurablePlacement} {new : StatePlacement} {put : Option String}
    (h : toState p new put = .ok (none, p')) : p'.state = new := by
  unfold toState at h
  split_ifs at h
  · cases h
  · cases h
  · split at h
    · cases h
    · cases h
    · split at h <;> cases h
      rfl

/-! ## Runs of calls -/

/-- A sequence of `ToState` calls, each with its target and the error of its `Put()`, if any: the
errors the calls return and the placement they leave, or the first panic. -/
def toStates (p : DurablePlacement) :
    List (StatePlacement × Option String) →
      Except PlacementPanic (List (Option PlacementError) × DurablePlacement)
  | [] => .ok ([], p)
  | (new, put) :: calls => match toState p new put with
    | .error e => .error e
    | .ok (e, p') => match toStates p' calls with
      | .error e => .error e
      | .ok (es, p'') => .ok (e :: es, p'')

/-- The state reached from `s` by the calls that returned nil alone. -/
def acceptedState (s : StatePlacement) :
    List ((StatePlacement × Option String) × Option PlacementError) → StatePlacement
  | [] => s
  | ((new, _), e) :: rest => acceptedState (if e.isNone then new else s) rest

/-- After any sequence of `ToState` calls that does not panic, whichever of them fail, `State` is
what the calls that returned nil alone would make it. -/
theorem toStates_state {p p' : DurablePlacement} :
    ∀ {calls : List (StatePlacement × Option String)} {es : List (Option PlacementError)},
      toStates p calls = .ok (es, p') → p'.state = acceptedState p.state (calls.zip es)
  | [], _, h => by cases h; rfl
  | (new, put) :: calls, _, h => by
    unfold toStates at h
    split at h
    · cases h
    · next e p₁ hs =>
      split at h
      · cases h
      · next es' _ hr =>
        cases h
        have hp₁ : p₁.state = if e.isNone then new else p.state := by
          cases e with
          | none => exact toState_ok_state hs
          | some err => exact (toState_error_frame hs).1
        rw [toStates_state hr, hp₁]
        rfl

theorem toStates_state_fetch :
    (⟨"node-a", .fetched⟩ : DurablePlacement).state =
      acceptedState .pending ([(.fetching, none), (.fetched, some "timeout"), (.fetched, none)].zip
        [none, some (.persisting "timeout"), none]) :=
  @toStates_state ⟨"node-a", .pending⟩ ⟨"node-a", .fetched⟩
    [(.fetching, none), (.fetched, some "timeout"), (.fetched, none)]
    [none, some (.persisting "timeout"), none] rfl

/-! ## The state diagram -/

/-- `Taken → Dropped` with a failing `Put()`: `ToState` returns an error and rewinds `State`, but
`NodeID` stays cleared. -/
theorem toState_dropped_put_fails :
    toState ⟨"node-a", .taken⟩ .dropped (some "store unavailable") =
      .ok (some (.persisting "store unavailable"), ⟨"", .taken⟩) := by
  decide

/-! ## `Node.Give` against the kv node -/

/-- The `ToState` calls `Node.Give` makes on its new placement for the state the node answered,
in order; `none` for its panic on `Unknown` and `Taken`. -/
def giveCalls : Kv.StateRemote → Option (List StatePlacement)
  | .ready => some [.ready]
  | .fetching => some [.fetching]
  | .fetched => some [.fetching, .fetched]
  | .fetchFailed => some [.fetching, .fetchFailed]
  | .unknown | .taken => none

/-- A kv node's `Give` that answers is mirrored by the controller without its panic on an
unexpected state and without its `FETCHING` branch. From `NewPlacement`'s `SpPending`, with every
`Put()` succeeding, the placement reaches `SpReady` for `READY` and `SpFetched` for `FETCHED`, and
the calls panic for `FETCH_FAILED`. -/
theorem give_mirrored {n n' : Kv.Node} {req : Kv.GiveRequest} {fetches : List Kv.Fetch}
    {st : Kv.StateRemote} (hg : n.give req fetches = .ok (.ok st, n')) (nodeID : String) :
    st ≠ .fetching ∧ ∃ calls, giveCalls st = some calls ∧
      toStates ⟨nodeID, .pending⟩ (calls.map (·, none)) =
        if st = .fetchFailed then .error .fetchingToFetchFailed
        else .ok (calls.map fun _ => none, ⟨nodeID, if st = .ready then .ready else .fetched⟩) := by
  obtain ⟨_, _, rd, _, -, -, hgiven, rfl, -⟩ := n.give_ok_state hg
  rcases Kv.given_state hgiven with h | h | h <;> rw [h] <;> exact ⟨nofun, _, rfl, rfl⟩

/-- A range given with one parent whose `Dump` failed: the node answers `FETCH_FAILED`, and the
controller's mirror panics. -/
theorem give_mirrored_fetch_failed :
    Kv.Node.new.give ⟨some ⟨none, [], []⟩, [⟨some ⟨none, [], []⟩, "a"⟩]⟩
        [⟨"a", .error "unavailable"⟩] =
      .ok (.ok .fetchFailed, Kv.Node.new.add ⟨⟨List.replicate 40 0, rfl⟩, [], []⟩ ⟨∅, .fetchFailed⟩) ∧
    Kv.StateRemote.fetchFailed ≠ .fetching ∧ ∃ calls, giveCalls .fetchFailed = some calls ∧
      toStates ⟨"b", .pending⟩ (calls.map (·, none)) =
        if Kv.StateRemote.fetchFailed = .fetchFailed then .error .fetchingToFetchFailed
        else .ok (calls.map fun _ => none,
          ⟨"b", if Kv.StateRemote.fetchFailed = .ready then .ready else .fetched⟩) :=
  have hg : Kv.Node.new.give ⟨some ⟨none, [], []⟩, [⟨some ⟨none, [], []⟩, "a"⟩]⟩
        [⟨"a", .error "unavailable"⟩] =
      .ok (.ok .fetchFailed, Kv.Node.new.add ⟨⟨List.replicate 40 0, rfl⟩, [], []⟩ ⟨∅, .fetchFailed⟩) :=
    rfl
  ⟨hg, give_mirrored hg "b"⟩

end Ranger.Placement
