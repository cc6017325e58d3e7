/-
The orchestrator's `Tick`, `tickRange` and `tickPlacement` (`pkg/orchestrator`). `Tick` takes a
snapshot of the keyspace's ranges and runs the operator's pending joins; then, for each operation
in flight, lets `op.CheckComplete` mark finished parents `RsObsolete` and ticks the operation's
ranges; then ticks every other range of the snapshot that is not `RsObsolete`. `tickRange` acts
on an `RsActive` range (a missing placement, a pending move, a pending split), then passes each
placement to `tickPlacement`, applies the writes it asks for, and removes the placements it marks
for destruction.

Ranges are values kept in `Orchestrator.ranges` and found by ident, standing for Go's shared
`*Range`s; a `*Placement` is a position in its range's slice. What the tick asks of code outside
the model enters as `Env`: the roster's `Candidate`, the keyspace's `Split`, `JoinTwo`,
`Operations` and `op.CheckComplete`, `MinPlacements`, and what `tickPlacement` reads (`View`).

`tickPlacement` returns the calls it makes on code outside src/, in order, with its verdict. The
tick applies the calls that write its own state: `PlacementToState` sets the placement's state,
`DoneReplacing` clears its `IsReplacing`, and a drain appends a move to `opMoves`. `Want` sets the
state the actuator is to bring about, which the tick never reads; it stays in the trace. A run
returns every placement the placement loop passed to `tickPlacement`, with the ident of its range
and the calls made on it.

The `return`s of the `RsActive` case skip the placement loop (`tickRange_trace`), and the removal
loop deletes by the indices `tickPlacement` was called with, in a slice that shrinks with every
deletion (`tickRange_panics_of_last_destroyed`).
-/
import Ranger.Api

namespace Ranger

namespace Orchestrator

open Api

/-- `api.RangeID`. -/
abbrev RangeID := Nat

/-- `api.NodeID`. -/
abbrev NodeID := String

/-- The fields of `ranje.Placement` the tick reads and writes. -/
structure Placement where
  nodeID : NodeID
  stateCurrent : PlacementState
  isReplacing : NodeID
deriving DecidableEq, Repr

/-- The fields of `ranje.Range` the tick reads and writes. -/
structure Range where
  ident : RangeID
  state : RangeState
  placements : List Placement
deriving DecidableEq, Repr

/-- Modelled from its uses: `ranje.Range.NewPlacement(nID)`, whose body is not under src/,
appends a pending placement on the node. -/
def Range.newPlacement (r : Range) (nID : NodeID) : Range :=
  { r with placements := r.placements ++ [⟨nID, .pending, ""⟩] }

/-- Modelled from its uses: `ranje.Range.NewReplacement(dest, src, cb)`, whose body is not under
src/, appends a pending placement on `dest` that replaces the one on `src`. -/
def Range.newReplacement (r : Range) (dest src : NodeID) : Range :=
  { r with placements := r.placements ++ [⟨dest, .pending, src⟩] }

/-- `ranje.Constraint`, of which the tick sets only `NodeID`. -/
structure Constraint where
  nodeID : NodeID
deriving DecidableEq, Repr

/-- Modelled from its uses: `ranje.AnyNode`, the constraint with no node. -/
def anyNode : Constraint := ⟨""⟩

/-- The constraint for a requested node: the node, or `AnyNode` when none is named. -/
def constraintFor (nID : NodeID) : Constraint := if nID ≠ "" then ⟨nID⟩ else anyNode

/-- `OpMove`, without its error channel. -/
structure OpMove where
  range : RangeID
  src : NodeID
  dest : NodeID
deriving DecidableEq, Repr

/-- `OpSplit`, without its error channel. -/
structure OpSplit where
  key : String
  left : NodeID
  right : NodeID
deriving DecidableEq, Repr

/-- `OpJoin`, without its error channel. -/
structure OpJoin where
  left : RangeID
  right : RangeID
  dest : NodeID
deriving DecidableEq, Repr

end Orchestrator

/-- The fields of `Orchestrator` the tick reads and writes: the keyspace's ranges, and the
pending operator requests (`opSplits` is a map from range to split). -/
structure Orchestrator where
  ranges : List Orchestrator.Range
  opMoves : List Orchestrator.OpMove
  opSplits : List (Orchestrator.RangeID × Orchestrator.OpSplit)
  opJoins : List Orchestrator.OpJoin
deriving DecidableEq

namespace Orchestrator

open Api

/-- The actions whose failure `tickPlacement` asks about (`p.Failed(action)`). -/
inductive Action
  | prepare | activate
deriving DecidableEq, Repr

/-- The part of a `roster.Node` that `tickPlacement` reads: its ident, whether it wants to be
drained, and its state of each range (`n.Get(rID)`, `none` when it has none). -/
structure NodeView where
  ident : NodeID
  wantDrain : Bool
  get : RangeID → Option RemoteState

/-- What `tickPlacement` reads through code that is not under src/: the roster's `NodeByIdent`
(`none` for an error), `p.Failed`, and the operation's `MayActivate`, `MayDrop` and
`MayDeactivate` (`true` for a nil error), which also see whether there is an operation. -/
structure View where
  nodeByIdent : NodeID → Option NodeView
  failed : Placement → Action → Bool
  mayActivate : Placement → Range → Bool → Bool
  mayDrop : Placement → Range → Bool → Bool
  mayDeactivate : Placement → Range → Bool → Bool

/-- A call `tickPlacement` makes on code outside the model. -/
inductive Call
  /-- `b.ks.PlacementToState(p, s)`. -/
  | placementToState (s : PlacementState)
  /-- `p.Want(s)`. -/
  | want (s : PlacementState)
  /-- `p.DoneReplacing()`. -/
  | doneReplacing
  /-- `b.opMoves = append(b.opMoves, m)`. -/
  | opMove (m : OpMove)
deriving DecidableEq, Repr

/-- What the tick asks of code outside the model. `none` stands for an error. -/
structure Env where
  /-- `r.MinPlacements()`. -/
  minPlacements : Range → Nat
  /-- `b.rost.Candidate(r, c)`. -/
  candidate : Option Range → Constraint → Option NodeID
  /-- `b.ks.Split(r, key)`: the idents of the two new ranges. -/
  split : Range → String → Option (RangeID × RangeID)
  /-- `b.ks.JoinTwo(r1, r2)`: the ident of the joined range. -/
  joinTwo : Range → Range → Option RangeID
  /-- `b.ks.Operations()`: the idents of `op.Ranges()` of each operation in flight. -/
  operations : Option (List (List RangeID))
  /-- `op.CheckComplete(b.ks)` for the operation with these ranges: the idents of the ranges it
  marks `RsObsolete`, the parents whose placements have all been dropped. -/
  checkComplete : List RangeID → Orchestrator → List RangeID
  /-- What `tickPlacement` reads. -/
  view : View

/-- The panics of the tick. -/
inductive Panic
  /-- `panic(fmt.Sprintf("unknown RangeState value: %s", r.State))` in `tickRange`. -/
  | unknownRangeState
  /-- The runtime's `slice bounds out of range [low:len]`. -/
  | sliceBounds (low len : Nat)
  /-- `panic(fmt.Sprintf("unhandled PlacementState value: %s", p.StateCurrent))` in
  `tickPlacement`. -/
  | unhandledPlacementState (s : PlacementState)
deriving DecidableEq, Repr

/-- Why `doMove` rejects a move. -/
inductive MoveError
  /-- `"src placement not found (rID=%v, nID=%v)"` -/
  | srcNotFound
  /-- `"no active placement found (rID=%v)"` -/
  | noActivePlacement
  /-- `"placement already being replaced (src=%v, dest=%v)"` -/
  | alreadyReplaced
  /-- The error of `Candidate`. -/
  | noCandidate
deriving DecidableEq, Repr

/-- `b.ks.GetRange(id)`. -/
def getRange (o : Orchestrator) (id : RangeID) : Option Range := o.ranges.find? (·.ident == id)

/-- The writes through a `*Range`. -/
def setRange (o : Orchestrator) (r : Range) : Orchestrator :=
  { o with ranges := o.ranges.map fun r' => if r'.ident = r.ident then r else r' }

/-- What `op.CheckComplete` writes: the ranges it names become `RsObsolete`. -/
def markObsolete (o : Orchestrator) (ids : List RangeID) : Orchestrator :=
  { o with ranges := o.ranges.map fun r => if r.ident ∈ ids then { r with state := .obsolete } else r }

/-! ## `tickPlacement` -/

section TickPlacement

variable (v : View)

/-- Clear `IsReplacing` once no placement of the range is on the node it names. -/
def replacingCalls (p : Placement) (r : Range) : List Call :=
  if p.isReplacing ≠ "" ∧ ¬ r.placements.any (p.isReplacing == ·.nodeID) then [.doneReplacing]
  else []

/-- Queue a move of the range off a node that wants to be drained. -/
def drainCalls (n : Option NodeView) (r : Range) : List Call :=
  match n with
  | some n => if n.wantDrain then [.opMove ⟨r.ident, n.ident, ""⟩] else []
  | none => []

/-- The `PsPending` case: ask for `PsInactive` again when the node does not hold the range or has
lost it, and destroy the placement once `Prepare` has failed. -/
def placementPending (p : Placement) (ri : Option RemoteState) : List Call × Bool :=
  match ri with
  | some .preparing => ([.want .inactive], false)
  | some .inactive => ([.placementToState .inactive], false)
  | some .notFound | none => ([.want .inactive], v.failed p .prepare)
  | some _ => ([.placementToState .missing], false)

/-- The `PsInactive` case. -/
def placementInactive (p : Placement) (r : Range) (op : Bool) (ri : Option RemoteState) :
    List Call × Bool :=
  match ri with
  | none =>
    if v.failed p .activate then ([], true)
    else if v.mayDrop p r op then ([.placementToState .dropped], false)
    else ([.placementToState .missing], false)
  | some .inactive =>
    if v.mayActivate p r op then ([.want .active], false)
    else if v.mayDrop p r op then ([.want .dropped], false)
    else ([], false)
  | some .activating => ([.want .active], false)
  | some .dropping => ([.want .dropped], false)
  | some .active => ([.placementToState .active], false)
  | some _ => ([.placementToState .missing], false)

/-- The `PsActive` case. -/
def placementActive (p : Placement) (r : Range) (op : Bool) (ri : Option RemoteState) :
    List Call × Bool :=
  match ri with
  | none => ([.placementToState .missing], false)
  | some .active => (if v.mayDeactivate p r op then [.want .inactive] else [], false)
  | some .deactivating => ([.want .inactive], false)
  | some .inactive => ([.placementToState .inactive], false)
  | some _ => ([.placementToState .missing], false)

/-- `Orchestrator.tickPlacement`: the calls it makes, in order, and whether the placement is to be
destroyed. A node the roster cannot find leaves only `PsMissing` and `PsDropped` placements to the
`switch`, so the node is there whenever its state of the range is read. -/
def tickPlacement (p : Placement) (r : Range) (op : Bool) : Except Panic (List Call × Bool) :=
  let n := v.nodeByIdent p.nodeID
  if n.isNone ∧ p.stateCurrent ≠ .missing ∧ p.stateCurrent ≠ .dropped then
    .ok ([.placementToState .missing], false)
  else
    let pre := replacingCalls p r ++ drainCalls n r
    let ri := n.bind (·.get r.ident)
    match p.stateCurrent with
    | .pending => .ok (pre ++ (placementPending v p ri).1, (placementPending v p ri).2)
    | .inactive => .ok (pre ++ (placementInactive v p r op ri).1, (placementInactive v p r op ri).2)
    | .active => .ok (pre ++ (placementActive v p r op ri).1, (placementActive v p r op ri).2)
    | .missing => .ok (pre ++ [.placementToState .dropped], false)
    | .dropped => .ok (pre, true)
    | .unknown => .error (.unhandledPlacementState .unknown)

end TickPlacement

/-- What a call writes through the `*Placement` it is made on: `PlacementToState` its state,
`DoneReplacing` its `IsReplacing`. -/
def Call.apply : Call → Placement → Placement
  | .placementToState s, p => { p with stateCurrent := s }
  | .doneReplacing, p => { p with isReplacing := "" }
  | .want _, p | .opMove _, p => p

/-- The moves a call appends to `opMoves`. -/
def Call.moves : Call → List OpMove
  | .opMove m => [m]
  | _ => []

/-- The placement as the calls made on it leave it. -/
def Placement.applyCalls (p : Placement) (calls : List Call) : Placement :=
  calls.foldl (fun p c => c.apply p) p

variable (env : Env)

/-! ## `tickRange` -/

/-- `doMove`. -/
def doMove (r : Range) (m : OpMove) : Except MoveError Range :=
  let src? := if m.src ≠ "" then r.placements.find? (·.nodeID == m.src)
    else r.placements.find? (·.stateCurrent == .active)
  match src? with
  | none => .error (if m.src ≠ "" then .srcNotFound else .noActivePlacement)
  | some src =>
    if r.placements.any (·.isReplacing == src.nodeID) then .error .alreadyReplaced
    else match env.candidate (some r) ⟨m.dest⟩ with
      | none => .error .noCandidate
      | some dest => .ok (r.newReplacement dest src.nodeID)

/-- The pending split of `tickRange`, once it is taken out of `opSplits`: two candidates, the
split, and a placement on each new range; `false` for its `return`s. -/
def doSplit (o : Orchestrator) (r : Range) (s : OpSplit) : Orchestrator × Range × Bool :=
  match env.candidate none (constraintFor s.left) with
  | none => (o, r, false)
  | some nL => match env.candidate none (constraintFor s.right) with
    | none => (o, r, false)
    | some nR => match env.split r s.key with
      | none => (o, r, false)
      | some (idL, idR) =>
        ({ o with ranges := o.ranges ++
            [(Range.mk idL .active []).newPlacement nL, (Range.mk idR .active []).newPlacement nR] },
          { r with state := .subsuming }, true)

/-- The `RsActive` case of `tickRange`: the orchestrator and range it leaves, and whether it goes
on to the placement loop (`false` for its `return`s). -/
def tickActive (o : Orchestrator) (r : Range) : Orchestrator × Range × Bool :=
  let placed := if r.placements.length < env.minPlacements r then
      (env.candidate (some r) anyNode).map r.newPlacement
    else some r
  match placed with
  | none => (o, r, false)
  | some r =>
    let moved : Option (Except MoveError Range) × Orchestrator :=
      match o.opMoves.find? (·.range == r.ident) with
      | none => (none, o)
      | some m => (some (doMove env r m),
          { o with opMoves := o.opMoves.eraseP (·.range == r.ident) })
    match moved with
    | (some (.error _), o) => (o, r, false)
    | (some (.ok r), o) | (none, o) =>
      match o.opSplits.lookup r.ident with
      | none => (o, r, true)
      | some s => doSplit env { o with opSplits := o.opSplits.filter (·.1 != r.ident) } r s

/-- The `switch r.State` of `tickRange` on a known state: the orchestrator and range it leaves,
and whether the placement loop runs. -/
def tickState (o : Orchestrator) (r : Range) : Orchestrator × Range × Bool :=
  if r.state = .active then tickActive env o r else (o, r, true)

/-- The placement loop of `tickRange`, `for i, p := range r.Placements`: `tickPlacement` on each
placement in turn, with the range as the placements before it were left (`done`, as their calls
left them). It returns the slice it leaves, the indices marked for destruction (`toDestroy`), and
each placement with the calls made on it. -/
def tickPlacements (r : Range) (op : Bool) :
    List Placement → List Placement →
      Except Panic (List Placement × List Nat × List (Placement × List Call))
  | done, [] => .ok (done, [], [])
  | done, p :: ps =>
    match tickPlacement env.view p { r with placements := done ++ p :: ps } op with
    | .error e => .error e
    | .ok (calls, d) =>
      match tickPlacements r op (done ++ [p.applyCalls calls]) ps with
      | .error e => .error e
      | .ok (qs, toDestroy, t) =>
        .ok (qs, if d then done.length :: toDestroy else toDestroy, (p, calls) :: t)

/-- The removal loop of `tickRange`: `append(ps[:idx], ps[idx+1:]...)` for each index in turn,
which panics when `idx+1` is past the end of the shrinking slice. -/
def removeIndices : List Placement → List Nat → Except Panic (List Placement)
  | ps, [] => .ok ps
  | ps, idx :: idxs =>
    if idx + 1 ≤ ps.length then removeIndices (ps.take idx ++ ps.drop (idx + 1)) idxs
    else .error (.sliceBounds (idx + 1) ps.length)

/-- `tickRange`: the orchestrator it leaves, and each placement it passes to `tickPlacement` with
the calls made on it. The drain moves are appended to `opMoves` after the loop, in order, since
nothing in the loop reads `opMoves`. -/
def tickRange (o : Orchestrator) (r : Range) (op : Bool) :
    Except Panic (Orchestrator × List (Placement × List Call)) :=
  if r.state = .unknown then .error .unknownRangeState
  else
    let (o, r, cont) := tickState env o r
    if cont then
      match tickPlacements env r op [] r.placements with
      | .error p => .error p
      | .ok (ps, toDestroy, t) => match removeIndices ps toDestroy with
        | .error p => .error p
        | .ok ps =>
          let o := o.setRange { r with placements := ps }
          .ok ({ o with opMoves := o.opMoves ++ t.flatMap fun x => x.2.flatMap Call.moves }, t)
    else .ok (o.setRange r, [])

/-! ## `Tick` -/

/-- One pending join of `Tick`; an error moves on to the next. -/
def joinOne (o : Orchestrator) (j : OpJoin) : Orchestrator :=
  match o.getRange j.left, o.getRange j.right with
  | some r1, some r2 =>
    match env.candidate none (constraintFor j.dest) with
    | none => o
    | some n => match env.joinTwo r1 r2 with
      | none => o
      | some id3 =>
        let o := (o.setRange { r1 with state := .subsuming }).setRange { r2 with state := .subsuming }
        { o with ranges := o.ranges ++ [(Range.mk id3 .active []).newPlacement n] }
  | _, _ => o

/-- The placements a tick passed to `tickPlacement`, each with the ident of its range and the
calls made on it. -/
abbrev Trace := List (RangeID × Placement × List Call)

/-- The loop of `Tick` over the ranges of one operation; it records them as visited. -/
def tickOpRanges : Orchestrator → List RangeID → List RangeID → Except Panic (Orchestrator × List RangeID × Trace)
  | o, visited, [] => .ok (o, visited, [])
  | o, visited, id :: ids => match o.getRange id with
    | none => tickOpRanges o visited ids
    | some r => match tickRange env o r true with
      | .error p => .error p
      | .ok (o, t) => match tickOpRanges o (id :: visited) ids with
        | .error p => .error p
        | .ok (o, visited, t') => .ok (o, visited, t.map (id, ·) ++ t')

/-- The loop of `Tick` over the operations in flight: `op.CheckComplete`, then the operation's
ranges. -/
def tickOps : Orchestrator → List RangeID → List (List RangeID) → Except Panic (Orchestrator × List RangeID × Trace)
  | o, visited, [] => .ok (o, visited, [])
  | o, visited, op :: ops =>
    match tickOpRanges env (o.markObsolete (env.checkComplete op o)) visited op with
    | .error p => .error p
    | .ok (o, visited, t) => match tickOps o visited ops with
      | .error p => .error p
      | .ok (o, visited, t') => .ok (o, visited, t ++ t')

/-- The loop of `Tick` over the snapshot: ranges that are obsolete or already visited are
skipped. -/
def tickRest (visited : List RangeID) : Orchestrator → List RangeID → Except Panic (Orchestrator × Trace)
  | o, [] => .ok (o, [])
  | o, id :: ids => match o.getRange id with
    | none => tickRest visited o ids
    | some r =>
      if r.state = .obsolete ∨ id ∈ visited then tickRest visited o ids
      else match tickRange env o r false with
        | .error p => .error p
        | .ok (o, t) => match tickRest visited o ids with
          | .error p => .error p
          | .ok (o, t') => .ok (o, t.map (id, ·) ++ t')

/-- `Orchestrator.Tick`. -/
def tick (o : Orchestrator) : Except Panic (Orchestrator × Trace) :=
  let rs := o.ranges.map (·.ident)
  let o := { o.opJoins.foldl (joinOne env) o with opJoins := [] }
  match env.operations with
  | none => tickRest env [] o rs
  | some ops => match tickOps env o [] ops with
    | .error p => .error p
    | .ok (o, visited, t) => match tickRest env visited o rs with
      | .error p => .error p
      | .ok (o, t') => .ok (o, t ++ t')

/-- The first ticks of `Orchestrator.Run`, each against what the code outside the model answers
at that tick; a panic ends the loop. -/
def run : List Env → Orchestrator → Except Panic (Orchestrator × List Trace)
  | [], o => .ok (o, [])
  | e :: es, o => match tick e o with
    | .error p => .error p
    | .ok (o, t) => match run es o with
      | .error p => .error p
      | .ok (o, ts) => .ok (o, t :: ts)

/-! ## The placement loop of `tickRange` -/

section Loop

variable {r : Range} {op : Bool}

/-- One turn of the placement loop, read backwards: the calls `tickPlacement` made, and the rest
of the loop run on the placement they left. -/
theorem tickPlacements_cons {done ps qs : List Placement} {p : Placement} {toDestroy : List Nat}
    {t : List (Placement × List Call)}
    (h : tickPlacements env r op done (p :: ps) = .ok (qs, toDestroy, t)) :
    ∃ calls d toDestroy' t',
      tickPlacement env.view p { r with placements := done ++ p :: ps } op = .ok (calls, d) ∧
      tickPlacements env r op (done ++ [p.applyCalls calls]) ps = .ok (qs, toDestroy', t') ∧
      toDestroy = (if d then done.length :: toDestroy' else toDestroy') ∧ t = (p, calls) :: t' := by
  simp only [tickPlacements] at h
  split at h
  · cases h
  next calls d hp =>
  split at h
  · cases h
  next hl =>
  cases h
  exact ⟨calls, d, _, _, hp, hl, rfl, rfl⟩

/-- The placement loop passes each placement to `tickPlacement` once, in order; it leaves each
placement as the calls made on it left it; and it marks only indices of the slice, in order. -/
theorem tickPlacements_spec : ∀ {done ps qs : List Placement} {toDestroy : List Nat}
    {t : List (Placement × List Call)}, tickPlacements env r op done ps = .ok (qs, toDestroy, t) →
      t.map (·.1) = ps ∧ qs = done ++ t.map (fun x => x.1.applyCalls x.2) ∧
        toDestroy.Sublist (List.range' done.length ps.length)
  | done, [], qs, toDestroy, t, h => by
    cases h
    exact ⟨rfl, (List.append_nil _).symm, List.nil_sublist _⟩
  | done, p :: ps, qs, toDestroy, t, h => by
    obtain ⟨calls, d, toDestroy', t', -, hl, rfl, rfl⟩ := tickPlacements_cons env h
    obtain ⟨ht, hq, hd⟩ := tickPlacements_spec hl
    refine ⟨by rw [List.map_cons, ht], by simp [hq], ?_⟩
    rw [List.length_append, List.length_singleton] at hd
    rw [List.length_cons, List.range'_succ]
    cases d
    · exact hd.cons _
    · exact hd.cons₂ _

end Loop

/-- What a `tickRange` that returned did: it stopped after the state's own case, or it ran the
placement loop and the removal loop and then appended the moves the loop asked for. -/
theorem tickRange_ok {o o' : Orchestrator} {r : Range} {op : Bool}
    {t : List (Placement × List Call)} (h : tickRange env o r op = .ok (o', t)) :
    (∃ o₁ r₁, tickState env o r = (o₁, r₁, false) ∧ o' = o₁.setRange r₁ ∧ t = []) ∨
    ∃ o₁ r₁ qs toDestroy ps, tickState env o r = (o₁, r₁, true) ∧
      tickPlacements env r₁ op [] r₁.placements = .ok (qs, toDestroy, t) ∧
      removeIndices qs toDestroy = .ok ps ∧
      o' = { o₁.setRange { r₁ with placements := ps } with
        opMoves := (o₁.setRange { r₁ with placements := ps }).opMoves ++
          t.flatMap fun x => x.2.flatMap Call.moves } := by
  unfold tickRange at h
  split_ifs at h
  rcases hts : tickState env o r with ⟨o₁, r₁, c⟩
  rw [hts] at h
  cases c
  · cases h
    exact .inl ⟨o₁, r₁, rfl, rfl, rfl⟩
  · simp only [if_true] at h
    split at h
    · cases h
    next qs toDestroy t hl =>
    split at h
    · cases h
    next ps hps =>
    cases h
    exact .inr ⟨o₁, r₁, qs, toDestroy, ps, rfl, hl, hps, rfl⟩

/-- The removal loop succeeds exactly when the `j`-th index stays below the length of the slice
after `j` removals. -/
theorem removeIndices_ok_iff :
    ∀ (ps : List Placement) (idxs : List Nat),
      (∃ qs, removeIndices ps idxs = .ok qs) ↔ ∀ j (h : j < idxs.length), idxs[j] + j < ps.length
  | ps, [] => ⟨fun _ j h => absurd h (Nat.not_lt_zero j), fun _ => ⟨ps, rfl⟩⟩
  | ps, i :: idxs => by
    unfold removeIndices
    split_ifs with h
    · have hlen : (ps.take i ++ ps.drop (i + 1)).length = ps.length - 1 := by
        rw [List.length_append, List.length_take, List.length_drop]; omega
      rw [removeIndices_ok_iff, hlen]
      constructor
      · intro hr j hj
        cases j with
        | zero => rw [List.getElem_cons_zero]; omega
        | succ j =>
          have := hr j (Nat.lt_of_succ_lt_succ hj)
          rw [List.getElem_cons_succ]; omega
      · intro hr j hj
        have := hr (j + 1) (Nat.succ_lt_succ hj)
        rw [List.getElem_cons_succ] at this; omega
    · refine iff_of_false (fun ⟨_, hq⟩ => nomatch hq) fun hr => h ?_
      have := hr 0 (Nat.succ_pos _)
      rw [List.getElem_cons_zero] at this; omega

theorem removeIndices_last_fails {ps : List Placement} {idxs : List Nat} (hA : idxs ≠ [])
    (hn : ps ≠ []) : ¬ ∃ qs, removeIndices ps (idxs ++ [ps.length - 1]) = .ok qs := by
  rw [removeIndices_ok_iff]
  intro h
  have h' := h idxs.length (by simp)
  simp only [List.getElem_concat_length] at h'
  have := List.length_pos.2 hA
  have := List.length_pos.2 hn
  omega

/-- Indices marked in order, among them the last one and another: the removal loop slices past the
end of the shrunk slice. -/
theorem removeIndices_fails_of_last {ps : List Placement} {idxs : List Nat}
    (hs : idxs.Sublist (List.range ps.length)) (hlast : ps.length - 1 ∈ idxs)
    (ho : ∃ i ∈ idxs, i ≠ ps.length - 1) : ∃ e, removeIndices ps idxs = .error e := by
  have hn : ps ≠ [] := by rintro rfl; simp at hs; simp [hs] at hlast
  have hlen : ps.length = ps.length - 1 + 1 := (Nat.succ_pred_eq_of_pos (List.length_pos.2 hn)).symm
  rw [hlen, List.range_succ, List.sublist_append_iff] at hs
  obtain ⟨init, tl, rfl, hinit, htl⟩ := hs
  have hmax : ps.length - 1 ∉ init := fun h => by simpa using List.mem_range.1 (hinit.subset h)
  rcases List.sublist_singleton.1 htl with rfl | rfl
  · simp [hmax] at hlast
  obtain ⟨i, hi, hne⟩ := ho
  have hA : init ≠ [] := by rintro rfl; simp [hne] at hi
  cases hq : removeIndices ps (init ++ [ps.length - 1]) with
  | error e => exact ⟨e, rfl⟩
  | ok qs => exact absurd ⟨qs, hq⟩ (removeIndices_last_fails hA hn)

/-- Where the placement loop marks the last placement and another, the removal loop fails. -/
theorem tickPlacements_removal_fails {r : Range} {op : Bool} {qs : List Placement}
    {toDestroy : List Nat} {t : List (Placement × List Call)}
    (hl : tickPlacements env r op [] r.placements = .ok (qs, toDestroy, t))
    (hlast : r.placements.length - 1 ∈ toDestroy)
    (ho : ∃ i ∈ toDestroy, i ≠ r.placements.length - 1) :
    ∃ e, removeIndices qs toDestroy = .error e := by
  obtain ⟨ht, hq, hd⟩ := tickPlacements_spec env hl
  have hlen : qs.length = r.placements.length := by
    rw [hq, List.nil_append, List.length_map, ← ht, List.length_map]
  rw [← hlen] at hlast ho
  rw [List.length_nil, ← List.range_eq_range', ← hlen] at hd
  exact removeIndices_fails_of_last hd hlast ho

/-- Whenever `tickRange` reaches its placement loop and `tickPlacement` marks the last placement
and another, the removal loop slices past the end of the shrunk slice. -/
theorem tickRange_panics_of_last_destroyed {o o₁ : Orchestrator} {r r₁ : Range} {op : Bool}
    {qs : List Placement} {toDestroy : List Nat} {t : List (Placement × List Call)}
    (hu : r.state ≠ .unknown) (hs : tickState env o r = (o₁, r₁, true))
    (hl : tickPlacements env r₁ op [] r₁.placements = .ok (qs, toDestroy, t))
    (hlast : r₁.placements.length - 1 ∈ toDestroy)
    (ho : ∃ i ∈ toDestroy, i ≠ r₁.placements.length - 1) :
    ∃ e, tickRange env o r op = .error e := by
  obtain ⟨e, he⟩ := tickPlacements_removal_fails env hl hlast ho
  refine ⟨e, ?_⟩
  unfold tickRange
  rw [if_neg hu, hs]
  simp [hl, he]

/-- A subsuming range with two `PsDropped` placements, whose nodes the roster does not find. -/
theorem tickRange_panics_of_last_destroyed_subsuming :
    ∃ e, tickRange ⟨fun _ => 1, fun _ _ => none, fun _ _ => none, fun _ _ => none, some [],
        fun _ _ => [], ⟨fun _ => none, fun _ _ => false, fun _ _ _ => false, fun _ _ _ => false,
          fun _ _ _ => false⟩⟩ ⟨[], [], [], []⟩
      ⟨1, .subsuming, [⟨"a", .dropped, ""⟩, ⟨"b", .dropped, ""⟩]⟩ true = .error e :=
  @tickRange_panics_of_last_destroyed _ _ ⟨[], [], [], []⟩ _
    ⟨1, .subsuming, [⟨"a", .dropped, ""⟩, ⟨"b", .dropped, ""⟩]⟩ _
    [⟨"a", .dropped, ""⟩, ⟨"b", .dropped, ""⟩] [0, 1]
    [(⟨"a", .dropped, ""⟩, []), (⟨"b", .dropped, ""⟩, [])]
    (by decide) rfl (by decide) (by decide) ⟨0, by decide, by decide⟩

/-! ## Placements the tick misses or mishandles -/

/-- Every node is in the roster, not being drained, and holds every range in state `s`; no action
has failed, and the operation allows activation when `act`, and no drop or deactivation. -/
def holdingView (s : RemoteState) (act : Bool) : View :=
  ⟨fun n => some ⟨n, false, fun _ => some s⟩, fun _ _ => false, fun _ _ _ => act,
    fun _ _ _ => false, fun _ _ _ => false⟩

/-- One active range with a placement on `a`, and a pending move of the range from `c`, where it
has no placement: `doMove` rejects the move, `tickRange` returns, and the tick passes no
placement to `tickPlacement`. -/
theorem tick_rejected_move_skips_placements :
    (tick ⟨fun _ => 1, fun _ _ => some "b", fun _ _ => none, fun _ _ => none, some [],
        fun _ _ => [], holdingView .active false⟩
      ⟨[⟨1, .active, [⟨"a", .active, ""⟩]⟩], [⟨1, "c", ""⟩], [], []⟩).map (·.2) = .ok [] := by
  decide

/-- Two `PsDropped` placements of a range slice out of bounds, and with `a` and `b` `PsDropped`
and `c` active on a node that holds the range active, `a` and `c` are removed and `b` is kept. -/
theorem tickRange_removal_shifts :
    tickRange ⟨fun _ => 1, fun _ _ => some "n", fun _ _ => none, fun _ _ => none, some [],
        fun _ _ => [], holdingView .active false⟩
        ⟨[⟨1, .active, [⟨"a", .dropped, ""⟩, ⟨"b", .dropped, ""⟩]⟩], [], [], []⟩
        ⟨1, .active, [⟨"a", .dropped, ""⟩, ⟨"b", .dropped, ""⟩]⟩ false =
      .error (.sliceBounds 2 1) ∧
    (tickRange ⟨fun _ => 1, fun _ _ => some "n", fun _ _ => none, fun _ _ => none, some [],
        fun _ _ => [], holdingView .active false⟩
        ⟨[⟨1, .active, [⟨"a", .dropped, ""⟩, ⟨"b", .dropped, ""⟩, ⟨"c", .active, ""⟩]⟩], [], [], []⟩
        ⟨1, .active, [⟨"a", .dropped, ""⟩, ⟨"b", .dropped, ""⟩, ⟨"c", .active, ""⟩]⟩ false).map
      (fun x => (x.1.getRange 1).map (·.placements)) = .ok (some [⟨"b", .dropped, ""⟩]) := by
  decide

end Orchestrator

end Ranger
