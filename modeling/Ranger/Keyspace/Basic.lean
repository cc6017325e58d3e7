/-
The range catalog of `pkg/ranje/keyspace.go`. Ranges are heap objects that point at each other
(`parents`, `children`), so the model keeps them in an arena: `Keyspace.heap` maps the pointer of
every range the keyspace allocated (its allocation number) to its fields, and `ks.ranges` is the
slice of pointers. Every call returns what Go returns (a Go `error` being `Option KeyspaceError`)
and the keyspace as Go leaves it, error or not. `Range.ToState`, which is not under src/, enters as
the parameter `toState`: whether the transition succeeds, in which case the range takes the new
state, or fails without effect.

`DoSplit` and `Discard` make all their checks before their first write, so a call that returns an
error leaves the keyspace exactly as it was. `JoinTwo` transitions its two ranges one after the
other and does not undo the first when the second fails: the range `one` is left `Joining`, with
no child, which `JoinTwo(r, r)` on a single `Ready` range shows (`failed_call_frame`).
-/
import Ranger.Key
import Mathlib.Logic.Function.Basic

namespace Ranger.Keyspace

/-- A range's ident, `Ident{Scope, Key}`. -/
structure Ident where
  scope : Bytes
  key : UInt64
deriving DecidableEq, Repr

/-- `Meta`: a range's ident and its interval `[Start, End)`. -/
structure Meta where
  ident : Ident
  start : Key
  «end» : Key
deriving DecidableEq, Repr

/-- Modelled from the spec: `Range.Contains`, which is not under src/. It is the test the kv
node's `RangeMeta.Contains` makes, `ZeroKey` standing for -∞ as a start and +∞ as an end. -/
def Meta.contains (m : Meta) (k : Key) : Bool := containsKey m.start m.end k

/-- The range states keyspace.go names (`StateLocal`, whose declaration is not under src/), with
`unknown` for the zero value a range is allocated in. -/
inductive StateLocal
  | unknown | pending | ready | splitting | joining | obsolete | quarantined
deriving DecidableEq, Repr

/-- The fields of `Range` that the keyspace reads and writes. A `*Range` is a `Nat`: the
allocation number of the range in its keyspace's arena. -/
structure Range where
  meta : Meta
  state : StateLocal
  parents : List Nat
  children : List Nat
deriving DecidableEq, Repr

/-- `&Range{Meta: Meta{Ident: id}}`: every other field at its zero value. -/
def Range.ofIdent (id : Ident) : Range := ⟨⟨id, ZeroKey, ZeroKey⟩, .unknown, [], []⟩

/-- The errors of the keyspace's calls, each with the values its message formats. -/
inductive KeyspaceError
  /-- `"no such range: %s"` -/
  | noSuchRange (id : Ident)
  /-- `"can't split on zero key"` -/
  | splitZeroKey
  /-- `"can't split non-ready range"` -/
  | splitNonReady
  /-- `"range %s already has %d children"` -/
  | hasChildren (r : Nat) (n : Nat)
  /-- `"range %s does not contain key: %s"` -/
  | notContains (r : Nat) (k : Key)
  /-- `"range %s starts with key: %s"` -/
  | startsWith (r : Nat) (k : Key)
  /-- the error of `r.ToState(new)`, returned unwrapped -/
  | toState (r : Nat) (new : StateLocal)
  /-- `"can't join non-ready ranges"` -/
  | joinNonReady
  /-- `"not adjacent: %s, %s"` -/
  | notAdjacent (one two : Nat)
  /-- `"can't discard non-obsolete range"` -/
  | discardNonObsolete
  /-- `"range %s has no children"` -/
  | noChildren (r : Nat)
  /-- `"range %s not in keyspace"` -/
  | notInKeyspace (r : Nat)
deriving DecidableEq, Repr

end Keyspace

open Keyspace

/-- `Keyspace`: the arena of allocated ranges, the slice `ranges` and the counter `nextIdent`. -/
structure Keyspace where
  /-- every range allocated so far, by pointer; the zero `Range` from `size` on -/
  heap : Nat → Range
  /-- how many ranges have been allocated -/
  size : Nat
  ranges : List Nat
  nextIdent : UInt64

namespace Keyspace

/-! ## The arena -/

/-- Write the range behind `p`. -/
def modify (ks : Keyspace) (p : Nat) (f : Range → Range) : Keyspace :=
  { ks with heap := Function.update ks.heap p (f (ks.heap p)) }

/-- Set the state of the range behind `p`. -/
def setState (ks : Keyspace) (p : Nat) (s : StateLocal) : Keyspace :=
  ks.modify p fun r => { r with state := s }

/-- `ks.Range()`: allocate a zero range whose ident is the next one, and advance the counter. -/
def range (ks : Keyspace) : Nat × Keyspace :=
  (ks.size, { ks with
    heap := Function.update ks.heap ks.size (Range.ofIdent ⟨[], ks.nextIdent⟩)
    size := ks.size + 1
    nextIdent := ks.nextIdent + 1 })

@[simp] theorem modify_heap (ks : Keyspace) (p : Nat) (f : Range → Range) (q : Nat) :
    (ks.modify p f).heap q = if q = p then f (ks.heap p) else ks.heap q := by
  by_cases h : q = p
  · subst h; simp [modify]
  · simp [modify, h]

@[simp] theorem modify_size (ks : Keyspace) (p : Nat) (f : Range → Range) :
    (ks.modify p f).size = ks.size := rfl

@[simp] theorem modify_ranges (ks : Keyspace) (p : Nat) (f : Range → Range) :
    (ks.modify p f).ranges = ks.ranges := rfl

@[simp] theorem modify_nextIdent (ks : Keyspace) (p : Nat) (f : Range → Range) :
    (ks.modify p f).nextIdent = ks.nextIdent := rfl

@[simp] theorem range_fst (ks : Keyspace) : ks.range.1 = ks.size := rfl

@[simp] theorem range_heap (ks : Keyspace) (q : Nat) :
    ks.range.2.heap q =
      if q = ks.size then Range.ofIdent ⟨[], ks.nextIdent⟩ else ks.heap q := by
  by_cases h : q = ks.size
  · subst h; simp [range]
  · simp [range, h]

@[simp] theorem range_size (ks : Keyspace) : ks.range.2.size = ks.size + 1 := rfl

@[simp] theorem range_ranges (ks : Keyspace) : ks.range.2.ranges = ks.ranges := rfl

@[simp] theorem range_nextIdent (ks : Keyspace) : ks.range.2.nextIdent = ks.nextIdent + 1 := rfl

/-! ## Constructors -/

/-- `New()`: the counter starts at 1, and one `Pending` range covers every key. -/
def new : Keyspace :=
  let ks : Keyspace := ⟨fun _ => Range.ofIdent ⟨[], 0⟩, 0, [], 1⟩
  let (r, ks) := ks.range
  let ks := ks.setState r .pending
  { ks with ranges := [r] }

/-- The loop of `NewWithSplits`: range `i` starts where range `i - 1` ends (`ZeroKey` for the
first) and ends at `splits[i]` (`ZeroKey` for the last); `rs` collects them in order. -/
def newWithSplitsLoop : Keyspace → List Nat → Key → List Key → Keyspace
  | ks, rs, s, [] =>
    let (r, ks) := ks.range
    { ks.modify r fun x => { x with meta.start := s, meta.end := ZeroKey } with ranges := rs ++ [r] }
  | ks, rs, s, e :: splits =>
    let (r, ks) := ks.range
    newWithSplitsLoop (ks.modify r fun x => { x with meta.start := s, meta.end := e }) (rs ++ [r]) e
      splits

/-- `NewWithSplits(splits)`: the counter starts at 0, and one range per gap between the splits,
which are assumed sorted. -/
def newWithSplits (splits : List Key) : Keyspace :=
  newWithSplitsLoop ⟨fun _ => Range.ofIdent ⟨[], 0⟩, 0, [], 0⟩ [] ZeroKey splits

/-! ## Lookups -/

/-- `GetByIdent(id)`: the first range of `ranges` with that ident. -/
def getByIdent (ks : Keyspace) (id : Ident) : Except KeyspaceError Nat :=
  match ks.ranges.find? fun r => (ks.heap r).meta.ident == id with
  | some r => .ok r
  | none => .error (.noSuchRange id)

/-- `index(r)`: the position of `r` in `ranges`. -/
def index (ks : Keyspace) (r : Nat) : Except KeyspaceError Nat :=
  match ks.ranges.indexOf? r with
  | some i => .ok i
  | none => .error (.notInKeyspace r)

/-! ## Mutations -/

section Mutations

variable (toState : Range → StateLocal → Bool)

/-- The part of `DoSplit(r, k)` after its checks and `r.ToState(Splitting)`: two children
`[Start, k)` and `[k, End)` are allocated, appended to `ranges` and recorded as `r`'s children. -/
def splitChildren (ks : Keyspace) (r : Nat) (k : Key) : Keyspace :=
  let rr := ks.heap r
  let (one, ks) := ks.range
  let ks := ks.modify one fun x => { x with meta.start := rr.meta.start, meta.end := k, parents := [r] }
  let (two, ks) := ks.range
  let ks := ks.modify two fun x => { x with meta.start := k, meta.end := rr.meta.end, parents := [r] }
  let ks := { ks with ranges := ks.ranges ++ [one] ++ [two] }
  ks.modify r fun x => { x with children := [one, two] }

/-- `DoSplit(r, k)`: the checks in the source's order, then `r.ToState(Splitting)`, then
`splitChildren`. -/
def doSplit (ks : Keyspace) (r : Nat) (k : Key) : Option KeyspaceError × Keyspace :=
  let rr := ks.heap r
  if k = ZeroKey then (some .splitZeroKey, ks)
  else if rr.state ≠ .ready then (some .splitNonReady, ks)
  else if rr.children.length > 0 then (some (.hasChildren r rr.children.length), ks)
  else if !rr.meta.contains k then (some (.notContains r k), ks)
  else if k = rr.meta.start then (some (.startsWith r k), ks)
  else if !toState rr .splitting then (some (.toState r .splitting), ks)
  else (none, (ks.setState r .splitting).splitChildren r k)

/-- The first loop of `JoinTwo`: each range must be `Ready` and childless. -/
def joinCheck (ks : Keyspace) : List Nat → Option KeyspaceError
  | [] => none
  | r :: rs =>
    if (ks.heap r).state ≠ .ready then some .joinNonReady
    else if (ks.heap r).children.length > 0 then some (.hasChildren r (ks.heap r).children.length)
    else joinCheck ks rs

/-- The second loop of `JoinTwo`: `r.ToState(new)` on each range in turn. It stops at the first
error, and the transitions made before it stay made. -/
def toStateEach (new : StateLocal) : Keyspace → List Nat → Option KeyspaceError × Keyspace
  | ks, [] => (none, ks)
  | ks, r :: rs =>
    if toState (ks.heap r) new then toStateEach new (ks.setState r new) rs
    else (some (.toState r new), ks)

/-- The part of `JoinTwo(one, two)` after its transitions: a range `[one.Start, two.End)` is
allocated with parents `one` and `two`, appended to `ranges`, and made the only child of each. -/
def joinChild (ks : Keyspace) (one two : Nat) : Keyspace :=
  let (three, ks) := ks.range
  let ks := ks.modify three fun x =>
    { x with meta.start := (ks.heap one).meta.start, meta.end := (ks.heap two).meta.end,
             parents := [one, two] }
  let ks := { ks with ranges := ks.ranges ++ [three] }
  let ks := ks.modify one fun x => { x with children := [three] }
  ks.modify two fun x => { x with children := [three] }

/-- `JoinTwo(one, two)`: the checks, `ToState(Joining)` on both ranges, then `joinChild`, whose
new range is returned. -/
def joinTwo (ks : Keyspace) (one two : Nat) : Except KeyspaceError Nat × Keyspace :=
  match joinCheck ks [one, two] with
  | some e => (.error e, ks)
  | none =>
    if (ks.heap one).meta.end ≠ (ks.heap two).meta.start then (.error (.notAdjacent one two), ks)
    else
      match toStateEach toState .joining ks [one, two] with
      | (some e, ks) => (.error e, ks)
      | (none, ks) => (.ok ks.size, ks.joinChild one two)

end Mutations

/-- `Discard(r)`: an `Obsolete` range with children leaves `ranges`, by the slice trick
`copy(ranges[i:], ranges[i+1:])` followed by dropping the last element. -/
def discard (ks : Keyspace) (r : Nat) : Option KeyspaceError × Keyspace :=
  let rr := ks.heap r
  if rr.state ≠ .obsolete then (some .discardNonObsolete, ks)
  else if rr.children.length = 0 then (some (.noChildren r), ks)
  else
    match ks.index r with
    | .error e => (some e, ks)
    | .ok i => (none, { ks with ranges := ks.ranges.take i ++ ks.ranges.drop (i + 1) })

/-! ## What each call does -/

@[simp] theorem setState_heap_meta (ks : Keyspace) (p : Nat) (s : StateLocal) (q : Nat) :
    ((ks.setState p s).heap q).meta = (ks.heap q).meta := by
  by_cases h : q = p <;> simp [setState, h]

@[simp] theorem setState_heap_parents (ks : Keyspace) (p : Nat) (s : StateLocal) (q : Nat) :
    ((ks.setState p s).heap q).parents = (ks.heap q).parents := by
  by_cases h : q = p <;> simp [setState, h]

@[simp] theorem setState_heap_children (ks : Keyspace) (p : Nat) (s : StateLocal) (q : Nat) :
    ((ks.setState p s).heap q).children = (ks.heap q).children := by
  by_cases h : q = p <;> simp [setState, h]

theorem setState_heap_state (ks : Keyspace) (p : Nat) (s : StateLocal) (q : Nat) :
    ((ks.setState p s).heap q).state = if q = p then s else (ks.heap q).state := by
  by_cases h : q = p <;> simp [setState, h]

@[simp] theorem setState_size (ks : Keyspace) (p : Nat) (s : StateLocal) :
    (ks.setState p s).size = ks.size := rfl

@[simp] theorem setState_ranges (ks : Keyspace) (p : Nat) (s : StateLocal) :
    (ks.setState p s).ranges = ks.ranges := rfl

@[simp] theorem setState_nextIdent (ks : Keyspace) (p : Nat) (s : StateLocal) :
    (ks.setState p s).nextIdent = ks.nextIdent := rfl

@[simp] theorem splitChildren_size (ks : Keyspace) (r : Nat) (k : Key) :
    (ks.splitChildren r k).size = ks.size + 2 := rfl

@[simp] theorem splitChildren_ranges (ks : Keyspace) (r : Nat) (k : Key) :
    (ks.splitChildren r k).ranges = ks.ranges ++ [ks.size, ks.size + 1] := by
  simp [splitChildren]

@[simp] theorem splitChildren_nextIdent (ks : Keyspace) (r : Nat) (k : Key) :
    (ks.splitChildren r k).nextIdent = ks.nextIdent + 1 + 1 := rfl

/-- The arena after `splitChildren` of an allocated range: the two children at the next two
pointers, `r` with those as children, every other range unchanged. -/
theorem splitChildren_heap {ks : Keyspace} {r : Nat} (hr : r < ks.size) (k : Key) (q : Nat) :
    (ks.splitChildren r k).heap q =
      if q = ks.size then ⟨⟨⟨[], ks.nextIdent⟩, (ks.heap r).meta.start, k⟩, .unknown, [r], []⟩
      else if q = ks.size + 1 then
        ⟨⟨⟨[], ks.nextIdent + 1⟩, k, (ks.heap r).meta.end⟩, .unknown, [r], []⟩
      else if q = r then { ks.heap r with children := [ks.size, ks.size + 1] }
      else ks.heap q := by
  have h₁ : r ≠ ks.size := by omega
  have h₂ : r ≠ ks.size + 1 := by omega
  by_cases hq : q = ks.size
  · subst hq; simp [splitChildren, h₁.symm, Range.ofIdent]
  · by_cases hq' : q = ks.size + 1
    · subst hq'; simp [splitChildren, h₂.symm, Range.ofIdent]
    · by_cases hr' : q = r
      · subst hr'; simp [splitChildren, h₁, h₂]
      · simp [splitChildren, hq, hq', hr']

@[simp] theorem joinChild_size (ks : Keyspace) (one two : Nat) :
    (ks.joinChild one two).size = ks.size + 1 := rfl

@[simp] theorem joinChild_ranges (ks : Keyspace) (one two : Nat) :
    (ks.joinChild one two).ranges = ks.ranges ++ [ks.size] := rfl

@[simp] theorem joinChild_nextIdent (ks : Keyspace) (one two : Nat) :
    (ks.joinChild one two).nextIdent = ks.nextIdent + 1 := rfl

/-- The arena after `joinChild` of two allocated ranges: the joined range at the next pointer,
`one` and `two` with it as only child, every other range unchanged. -/
theorem joinChild_heap {ks : Keyspace} {one two : Nat} (h₁ : one < ks.size) (h₂ : two < ks.size)
    (q : Nat) :
    (ks.joinChild one two).heap q =
      if q = ks.size then
        ⟨⟨⟨[], ks.nextIdent⟩, (ks.heap one).meta.start, (ks.heap two).meta.end⟩, .unknown, [one, two], []⟩
      else if q = one ∨ q = two then { ks.heap q with children := [ks.size] }
      else ks.heap q := by
  have n₁ : one ≠ ks.size := by omega
  have n₂ : two ≠ ks.size := by omega
  by_cases hq : q = ks.size
  · subst hq; simp [joinChild, Range.ofIdent, n₁, n₂, n₁.symm, n₂.symm]
  · by_cases ho : q = one
    · subst ho
      by_cases ht : q = two
      · subst ht; simp [joinChild, n₁]
      · simp [joinChild, n₁, Ne.symm ht, ht]
    · by_cases ht : q = two
      · subst ht; simp [joinChild, ho, n₂]
      · simp [joinChild, hq, ho, ht]

section Specs

variable {toState : Range → StateLocal → Bool}

/-- What `DoSplit(r, k)` needs to succeed. -/
structure SplitOk (toState : Range → StateLocal → Bool) (ks : Keyspace) (r : Nat) (k : Key) :
    Prop where
  key_ne : k ≠ ZeroKey
  ready : (ks.heap r).state = .ready
  childless : (ks.heap r).children = []
  contains : (ks.heap r).meta.contains k = true
  ne_start : k ≠ (ks.heap r).meta.start
  transition : toState (ks.heap r) .splitting = true

/-- `DoSplit` either fails and changes nothing, or passes every check and splits. -/
theorem doSplit_cases (ks : Keyspace) (r : Nat) (k : Key) :
    ((ks.doSplit toState r k).1.isSome ∧ (ks.doSplit toState r k).2 = ks) ∨
    ((ks.doSplit toState r k).1 = none ∧ SplitOk toState ks r k ∧
      (ks.doSplit toState r k).2 = (ks.setState r .splitting).splitChildren r k) := by
  simp only [doSplit]
  by_cases h₁ : k = ZeroKey
  · rw [if_pos h₁]; exact .inl ⟨rfl, rfl⟩
  rw [if_neg h₁]
  by_cases h₂ : (ks.heap r).state ≠ .ready
  · rw [if_pos h₂]; exact .inl ⟨rfl, rfl⟩
  rw [if_neg h₂]
  by_cases h₃ : (ks.heap r).children.length > 0
  · rw [if_pos h₃]; exact .inl ⟨rfl, rfl⟩
  rw [if_neg h₃]
  by_cases h₄ : (!(ks.heap r).meta.contains k) = true
  · rw [if_pos h₄]; exact .inl ⟨rfl, rfl⟩
  rw [if_neg h₄]
  by_cases h₅ : k = (ks.heap r).meta.start
  · rw [if_pos h₅]; exact .inl ⟨rfl, rfl⟩
  rw [if_neg h₅]
  by_cases h₆ : (!toState (ks.heap r) .splitting) = true
  · rw [if_pos h₆]; exact .inl ⟨rfl, rfl⟩
  rw [if_neg h₆]
  exact .inr ⟨rfl, ⟨h₁, by simpa using h₂, by simpa using h₃, by simpa using h₄, h₅,
    by simpa using h₆⟩, rfl⟩

/-- What `JoinTwo(one, two)` needs to succeed. -/
structure JoinOk (toState : Range → StateLocal → Bool) (ks : Keyspace) (one two : Nat) : Prop where
  ready_one : (ks.heap one).state = .ready
  ready_two : (ks.heap two).state = .ready
  childless_one : (ks.heap one).children = []
  childless_two : (ks.heap two).children = []
  adjacent : (ks.heap one).meta.end = (ks.heap two).meta.start
  transition_one : toState (ks.heap one) .joining = true
  transition_two : toState ((ks.setState one .joining).heap two) .joining = true

/-- The first loop of `JoinTwo` passes exactly when every range is `Ready` and childless. -/
theorem joinCheck_eq_none (ks : Keyspace) :
    ∀ rs : List Nat, joinCheck ks rs = none ↔
      ∀ r ∈ rs, (ks.heap r).state = .ready ∧ (ks.heap r).children = []
  | [] => by simp [joinCheck]
  | r :: rs => by
    rw [joinCheck, List.forall_mem_cons, ← joinCheck_eq_none ks rs]
    by_cases h₁ : (ks.heap r).state = .ready
    · by_cases h₂ : (ks.heap r).children = []
      · simp [h₁, h₂]
      · simp [h₁, h₂, List.length_pos]
    · simp [h₁]

/-- The second loop of `JoinTwo` over its two ranges, unrolled. -/
theorem toStateEach_pair (new : StateLocal) (ks : Keyspace) (one two : Nat) :
    toStateEach toState new ks [one, two] =
      if toState (ks.heap one) new then
        if toState ((ks.setState one new).heap two) new then
          (none, (ks.setState one new).setState two new)
        else (some (.toState two new), ks.setState one new)
      else (some (.toState one new), ks) := by
  simp only [toStateEach]

/-- `JoinTwo` either fails and changes nothing, or fails at the second transition with only the
first made, or passes every check and joins. -/
theorem joinTwo_cases (ks : Keyspace) (one two : Nat) :
    ((∃ e, (ks.joinTwo toState one two).1 = .error e) ∧ (ks.joinTwo toState one two).2 = ks) ∨
    ((∃ e, (ks.joinTwo toState one two).1 = .error e) ∧
      (ks.joinTwo toState one two).2 = ks.setState one .joining ∧
      toState (ks.heap one) .joining = true ∧
      toState ((ks.setState one .joining).heap two) .joining = false) ∨
    ((ks.joinTwo toState one two).1 = .ok ks.size ∧ JoinOk toState ks one two ∧
      (ks.joinTwo toState one two).2 =
        ((ks.setState one .joining).setState two .joining).joinChild one two) := by
  unfold joinTwo
  rcases hc : joinCheck ks [one, two] with _ | e
  · have hready := (joinCheck_eq_none ks _).1 hc
    obtain ⟨r₁, c₁⟩ := hready one (List.mem_cons_self _ _)
    obtain ⟨r₂, c₂⟩ := hready two (List.mem_cons_of_mem _ (List.mem_singleton_self _))
    dsimp only
    split_ifs with hadj
    · exact .inl ⟨⟨_, rfl⟩, rfl⟩
    rw [toStateEach_pair]
    by_cases t₁ : toState (ks.heap one) .joining
    · by_cases t₂ : toState ((ks.setState one .joining).heap two) .joining
      · rw [if_pos t₁, if_pos t₂]
        exact .inr (.inr ⟨rfl, ⟨r₁, r₂, c₁, c₂, not_not.1 hadj, t₁, t₂⟩, rfl⟩)
      · rw [if_pos t₁, if_neg t₂]
        exact .inr (.inl ⟨⟨_, rfl⟩, rfl, t₁, by simpa using t₂⟩)
    · rw [if_neg t₁]
      exact .inl ⟨⟨_, rfl⟩, rfl⟩
  · exact .inl ⟨⟨_, rfl⟩, rfl⟩

end Specs

theorem index_ok {ks : Keyspace} {r : Nat} {i : Nat} (h : ks.index r = .ok i) :
    ∃ hi : i < ks.ranges.length, ks.ranges[i] = r := by
  unfold index at h
  split at h
  · rename_i hs
    cases h
    simp only [List.indexOf?] at hs
    obtain ⟨hi, he, -⟩ := List.findIdx?_eq_some_iff_getElem.1 hs
    exact ⟨hi, by simpa using he⟩
  · cases h

/-- `Discard(r)` either fails and changes nothing, or removes from `ranges` the entry at the
position of `r`, an `Obsolete` range with children, leaving the arena as it is. -/
theorem discard_cases (ks : Keyspace) (r : Nat) :
    ((ks.discard r).1.isSome ∧ (ks.discard r).2 = ks) ∨
    ((ks.discard r).1 = none ∧ (ks.heap r).state = .obsolete ∧ (ks.heap r).children ≠ [] ∧
      ∃ (i : Nat) (hi : i < ks.ranges.length), ks.ranges[i] = r ∧
        (ks.discard r).2 = { ks with ranges := ks.ranges.eraseIdx i }) := by
  simp only [discard]
  by_cases h₁ : (ks.heap r).state ≠ .obsolete
  · rw [if_pos h₁]; exact .inl ⟨rfl, rfl⟩
  rw [if_neg h₁]
  by_cases h₂ : (ks.heap r).children.length = 0
  · rw [if_pos h₂]; exact .inl ⟨rfl, rfl⟩
  rw [if_neg h₂]
  split
  · exact .inl ⟨rfl, rfl⟩
  · next i hi =>
    obtain ⟨hlt, he⟩ := index_ok hi
    refine .inr ⟨rfl, not_not.1 h₁, ?_, i, hlt, he, ?_⟩
    · simpa [List.length_eq_zero] using h₂
    · simp [List.eraseIdx_eq_take_drop_succ]

/-! ## Failed calls -/

/-- A failed `DoSplit` or `Discard` changes nothing; a failed `JoinTwo` changes nothing or only
moves `one` to `Joining`, when `one`'s transition succeeded and `two`'s failed. -/
theorem failed_call_frame (toState : Range → StateLocal → Bool) (ks : Keyspace) (r one two : Nat)
    (k : Key) :
    ((ks.doSplit toState r k).1.isSome → (ks.doSplit toState r k).2 = ks) ∧
    ((ks.discard r).1.isSome → (ks.discard r).2 = ks) ∧
    (∀ e, (ks.joinTwo toState one two).1 = .error e →
      (ks.joinTwo toState one two).2 = ks ∨
      (ks.joinTwo toState one two).2 = ks.setState one .joining ∧
        toState ((ks.setState one .joining).heap two) .joining = false) := by
  refine ⟨fun h => ?_, fun h => ?_, fun e h => ?_⟩
  · rcases @doSplit_cases toState ks r k with ⟨-, e⟩ | ⟨e, -⟩
    · exact e
    · simp [e] at h
  · rcases discard_cases ks r with ⟨-, e⟩ | ⟨e, -⟩
    · exact e
    · simp [e] at h
  · rcases @joinTwo_cases toState ks one two with ⟨-, e⟩ | ⟨-, e, -, t⟩ | ⟨e', -⟩
    · exact .inl e
    · exact .inr ⟨e, t⟩
    · rw [e'] at h; cases h

/-- `JoinTwo(r, r)` on the one `Ready` range of a new keyspace, with a `ToState` that moves only
`Ready` ranges: the checks pass (the range ends where it starts, at `ZeroKey`), the first
transition moves `r` to `Joining`, the second is refused, and the error leaves `r` `Joining`. -/
theorem joinTwo_same_range_leaves_joining :
    ((new.setState 0 .ready).joinTwo (fun r _ => r.state == .ready) 0 0).1 =
      .error (.toState 0 .joining) ∧
    (((new.setState 0 .ready).joinTwo (fun r _ => r.state == .ready) 0 0).2.heap 0).state =
      .joining := by
  decide

end Ranger.Keyspace
