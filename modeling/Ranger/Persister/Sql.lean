/-
The SQL persister (`pkg/persister/sql`) over the schema its tests create:

    range     (id INTEGER PRIMARY KEY, start TEXT, end TEXT, state TEXT)
    child     (parentId INTEGER, childId INTEGER, PRIMARY KEY (parentId, childId))
    placement (rangeId INTEGER, nodeId TEXT, stateCurrent TEXT, stateDesired TEXT,
               PRIMARY KEY (rangeId, nodeId))

A table is the list of its rows in insertion order, and an `INSERT` that repeats a primary key
fails. `PutRanges` runs its inserts in one transaction: the first failing insert rolls all of
them back. `database/sql` passes a `uint64` argument only when its high bit is clear, and `Scan`
of an `INTEGER` into a `uint64` fails on a negative value.

No query has an `ORDER BY`: each reads its rows in the order SQLite's planner visits them for
this schema. `range` is read by its rowid, which is `id`. `child` is read through its key index
when `parentId` is given, and by rowid, which is insertion order, when `childId` is given: no
index leads with `childId`, and the key index is no narrower than the table. `placement` is read
through its key index, so by `nodeId` under the `BINARY` collation (`binaryLE`), which orders
UTF-8 text as its code points.

`PutRanges` writes a link between two ranges once for every side that records it, so a link that
both ranges record (the parent in the child's `Parents`, the child in the parent's `Children`)
is inserted twice and the whole call fails.
-/
import Ranger.Api
import Mathlib.Data.List.Sort

namespace Ranger.Persister

open Api

/-! ## Ranges and their string encodings -/

/-- `parseRangeStateString`. -/
def parseRangeStateString (s : String) : RangeState :=
  if s = "RsActive" then .active
  else if s = "RsSubsuming" then .subsuming
  else if s = "RsObsolete" then .obsolete
  else .unknown

/-- `parsePlacementStateString`. -/
def parsePlacementStateString (s : String) : PlacementState :=
  if s = "PsPending" then .pending
  else if s = "PsInactive" then .inactive
  else if s = "PsActive" then .active
  else if s = "PsMissing" then .missing
  else if s = "PsDropped" then .dropped
  else .unknown

@[simp] theorem parseRangeStateString_toString (s : RangeState) :
    parseRangeStateString s.toString = s := by
  cases s <;> decide

@[simp] theorem parsePlacementStateString_toString (s : PlacementState) :
    parsePlacementStateString s.toString = s := by
  cases s <;> decide

/-- `rapi.Meta`. -/
structure Meta where
  ident : UInt64
  start : String
  «end» : String
deriving DecidableEq, Repr

/-- The fields of `ranje.Placement` the persister reads and writes. -/
structure Placement where
  nodeID : String
  stateCurrent : PlacementState
  stateDesired : PlacementState
deriving DecidableEq, Repr

/-- The fields of `ranje.Range` the persister reads and writes. -/
structure Range where
  meta : Meta
  state : RangeState
  parents : List UInt64
  children : List UInt64
  placements : List Placement
deriving DecidableEq, Repr

/-! ## The store -/

/-- A row of `range`. -/
structure RangeRow where
  id : Int
  start : String
  «end» : String
  state : String
deriving DecidableEq, Repr

/-- A row of `child`. -/
structure ChildRow where
  parentId : Int
  childId : Int
deriving DecidableEq, Repr

/-- A row of `placement`. -/
structure PlacementRow where
  rangeId : Int
  nodeId : String
  stateCurrent : String
  stateDesired : String
deriving DecidableEq, Repr

/-- The three tables. -/
structure Store where
  range : List RangeRow
  child : List ChildRow
  placement : List PlacementRow
deriving DecidableEq, Repr

/-- The store `freshTestDB` creates. -/
def Store.empty : Store := ⟨[], [], []⟩

/-- The errors of the database the persister sees. -/
inductive SqlError
  /-- `database/sql` refusing a `uint64` argument: "uint64 values with high bit set are not
  supported". -/
  | highBit
  /-- An insert repeating a primary key of the table. -/
  | unique (table : String)
  /-- `Scan` of a negative `INTEGER` into a `uint64`. -/
  | scan
deriving DecidableEq, Repr

/-- A `uint64` argument of a statement, as `database/sql` converts it to an `INTEGER`. -/
def int64Arg (u : UInt64) : Except SqlError Int :=
  if u.toNat < 2 ^ 63 then .ok u.toNat else .error .highBit

/-- `Scan` of an `INTEGER` into a `rapi.RangeID`. -/
def scanRangeID (v : Int) : Except SqlError UInt64 :=
  if v < 0 then .error .scan else .ok (UInt64.ofNat v.toNat)

/-- SQLite's `BINARY` collation: `memcmp` of the UTF-8 encodings, the shorter text first when one
is a prefix of the other. UTF-8 keeps the order of code points, so this compares characters. -/
def binaryLE : List Char → List Char → Bool
  | [], _ => true
  | _ :: _, [] => false
  | a :: as, b :: bs => a.toNat < b.toNat || a = b && binaryLE as bs

namespace Store

/-- The prepared `INSERT INTO range (id, start, end, state) VALUES (?, ?, ?, ?)`. -/
def insertRange (st : Store) (row : RangeRow) : Except SqlError Store :=
  if st.range.any (·.id == row.id) then .error (.unique "range")
  else .ok { st with range := st.range ++ [row] }

/-- The prepared `INSERT INTO child (parentId, childId) VALUES (?, ?)`. -/
def insertChild (st : Store) (parentId childId : UInt64) : Except SqlError Store :=
  match int64Arg parentId, int64Arg childId with
  | .ok p, .ok c =>
    if st.child.any (· == ⟨p, c⟩) then .error (.unique "child")
    else .ok { st with child := st.child ++ [⟨p, c⟩] }
  | .error e, _ | _, .error e => .error e

/-- The prepared `INSERT INTO placement (rangeId, nodeId, stateCurrent, stateDesired) VALUES
(?, ?, ?, ?)`. -/
def insertPlacement (st : Store) (rangeId : Int) (p : Placement) : Except SqlError Store :=
  if st.placement.any fun row => row.rangeId == rangeId && row.nodeId == p.nodeID then
    .error (.unique "placement")
  else .ok { st with placement := st.placement ++
    [⟨rangeId, p.nodeID, p.stateCurrent.toString, p.stateDesired.toString⟩] }

/-- The loop of `PutRanges` over `r.Parents`. -/
def insertParents (id : UInt64) : Store → List UInt64 → Except SqlError Store
  | st, [] => .ok st
  | st, parentId :: ps => match st.insertChild parentId id with
    | .error e => .error e
    | .ok st' => insertParents id st' ps

/-- The loop of `PutRanges` over `r.Children`. -/
def insertChildren (id : UInt64) : Store → List UInt64 → Except SqlError Store
  | st, [] => .ok st
  | st, childId :: cs => match st.insertChild id childId with
    | .error e => .error e
    | .ok st' => insertChildren id st' cs

/-- The loop of `PutRanges` over `r.Placements`. -/
def insertPlacements (id : Int) : Store → List Placement → Except SqlError Store
  | st, [] => .ok st
  | st, p :: ps => match st.insertPlacement id p with
    | .error e => .error e
    | .ok st' => insertPlacements id st' ps

/-- The body of the loop of `PutRanges`: the range's row, its links and its placements. -/
def putRange (st : Store) (r : Range) : Except SqlError Store :=
  match int64Arg r.meta.ident with
  | .error e => .error e
  | .ok id =>
    match st.insertRange ⟨id, r.meta.start, r.meta.end, r.state.toString⟩ with
    | .error e => .error e
    | .ok st₁ => match insertParents r.meta.ident st₁ r.parents with
      | .error e => .error e
      | .ok st₂ => match insertChildren r.meta.ident st₂ r.children with
        | .error e => .error e
        | .ok st₃ => insertPlacements id st₃ r.placements

/-- The inserts of `PutRanges`, inside its transaction. -/
def putAll : Store → List Range → Except SqlError Store
  | st, [] => .ok st
  | st, r :: rs => match st.putRange r with
    | .error e => .error e
    | .ok st' => putAll st' rs

/-- `Persister.PutRanges`: on an error the deferred `tx.Rollback()` leaves the store as it was,
else `tx.Commit()` keeps every insert. -/
def putRanges (st : Store) (ranges : List Range) : Except SqlError Unit × Store :=
  match st.putAll ranges with
  | .error e => (.error e, st)
  | .ok st' => (.ok (), st')

/-- `Persister.GetParents`: the rows of `child` in rowid order. -/
def getParents (st : Store) (childId : UInt64) : Except SqlError (List UInt64) :=
  match int64Arg childId with
  | .error e => .error e
  | .ok c => ((st.child.filter (·.childId == c)).map (·.parentId)).mapM scanRangeID

/-- `Persister.GetChildren`: the rows of `child` in the order of its key `(parentId, childId)`. -/
def getChildren (st : Store) (parentId : UInt64) : Except SqlError (List UInt64) :=
  match int64Arg parentId with
  | .error e => .error e
  | .ok p =>
    (((st.child.filter (·.parentId == p)).map (·.childId)).insertionSort (· ≤ ·)).mapM scanRangeID

/-- `Persister.GetPlacements`: the rows of `placement` in the order of its key
`(rangeId, nodeId)`. -/
def getPlacements (st : Store) (rangeId : UInt64) : Except SqlError (List Placement) :=
  match int64Arg rangeId with
  | .error e => .error e
  | .ok id => .ok (((st.placement.filter (·.rangeId == id)).insertionSort
      fun a b => binaryLE a.nodeId.data b.nodeId.data).map fun row =>
        ⟨row.nodeId, parsePlacementStateString row.stateCurrent,
          parsePlacementStateString row.stateDesired⟩)

/-- The second loop of `GetRanges`: the links and placements of one range read back. -/
def getRange (st : Store) (row : RangeRow) : Except SqlError Range :=
  let id := UInt64.ofNat (row.id % 2 ^ 64).toNat
  match st.getParents id, st.getChildren id, st.getPlacements id with
  | .ok parents, .ok children, .ok placements =>
    .ok ⟨⟨id, row.start, row.end⟩, parseRangeStateString row.state, parents, children, placements⟩
  | .error e, _, _ | _, .error e, _ | _, _, .error e => .error e

/-- `Persister.GetRanges`: the rows of `range` in rowid order, which is `id` order. -/
def getRanges (st : Store) : Except SqlError (List Range) :=
  (st.range.insertionSort fun a b => a.id ≤ b.id).mapM st.getRange

end Store

/-! ## A link both sides record -/

/-- Range 1 with child 2, and range 2 with parent 1: `PutRanges` inserts the row `(1, 2)` of
`child` twice, fails, and rolls back, so `GetRanges` returns no range. -/
theorem putRanges_two_sided_link :
    Store.empty.putRanges [⟨⟨1, "", "b"⟩, .active, [], [2], []⟩, ⟨⟨2, "b", ""⟩, .active, [1], [], []⟩] =
      (.error (.unique "child"), Store.empty) ∧
    Store.empty.getRanges = .ok [] := by
  decide

/-! ## Storing a range again -/

namespace Store

theorem insertChild_range {st st' : Store} {parentId childId : UInt64}
    (h : st.insertChild parentId childId = .ok st') : st'.range = st.range := by
  unfold insertChild at h
  split at h
  · split_ifs at h
    cases h; rfl
  all_goals cases h

theorem insertPlacement_range {st st' : Store} {rangeId : Int} {p : Placement}
    (h : st.insertPlacement rangeId p = .ok st') : st'.range = st.range := by
  unfold insertPlacement at h
  split_ifs at h
  cases h; rfl

theorem insertParents_range (id : UInt64) :
    ∀ {st st' : Store} {ps : List UInt64}, insertParents id st ps = .ok st' → st'.range = st.range
  | _, _, [], h => by cases h; rfl
  | st, _, p :: ps, h => by
    simp only [insertParents] at h
    split at h
    · cases h
    · next st₁ h₁ => rw [insertParents_range id h, insertChild_range h₁]

theorem insertChildren_range (id : UInt64) :
    ∀ {st st' : Store} {cs : List UInt64}, insertChildren id st cs = .ok st' → st'.range = st.range
  | _, _, [], h => by cases h; rfl
  | st, _, c :: cs, h => by
    simp only [insertChildren] at h
    split at h
    · cases h
    · next st₁ h₁ => rw [insertChildren_range id h, insertChild_range h₁]

theorem insertPlacements_range (id : Int) :
    ∀ {st st' : Store} {ps : List Placement}, insertPlacements id st ps = .ok st' →
      st'.range = st.range
  | _, _, [], h => by cases h; rfl
  | st, _, p :: ps, h => by
    simp only [insertPlacements] at h
    split at h
    · cases h
    · next st₁ h₁ => rw [insertPlacements_range id h, insertPlacement_range h₁]

/-- A successful `putRange` inserted its range's row under an id no earlier row had, and kept
every row of `range`. -/
theorem putRange_range {st st' : Store} {r : Range} (h : st.putRange r = .ok st') :
    ∃ id, int64Arg r.meta.ident = .ok id ∧ (∀ row ∈ st.range, row.id ≠ id) ∧
      st.range ⊆ st'.range := by
  unfold putRange at h
  split at h
  · cases h
  next id _ =>
  split at h
  · cases h
  next st₁ h₁ =>
  unfold insertRange at h₁
  split_ifs at h₁ with hany
  cases h₁
  split at h
  · cases h
  next st₂ h₂ =>
  split at h
  · cases h
  next st₃ h₃ =>
  refine ⟨id, ‹_›, fun row hrow he => hany (List.any_eq_true.2 ⟨row, hrow, by simp [he]⟩), ?_⟩
  rw [insertPlacements_range _ h, insertChildren_range _ h₃, insertParents_range _ h₂]
  exact List.subset_append_left _ _

/-- No range a successful `putAll` stored has the id of a row that was there before. -/
theorem putAll_fresh :
    ∀ {st st' : Store} {rs : List Range}, st.putAll rs = .ok st' →
      ∀ r ∈ rs, ∀ row ∈ st.range, int64Arg r.meta.ident ≠ .ok row.id
  | _, _, [], _ => by simp
  | st, _, r :: rs, h => by
    simp only [putAll] at h
    split at h
    · cases h
    next st₁ h₁ =>
    obtain ⟨id, hid, hfresh, hsub⟩ := putRange_range h₁
    intro r' hr' row hrow
    rcases List.mem_cons.1 hr' with rfl | hr'
    · rw [hid]; exact fun he => hfresh row hrow (Except.ok.inj he).symm
    · exact putAll_fresh h r' hr' row (hsub hrow)

end Store

/-- `PutRanges` of ranges of which one has the id of a stored row fails, and the rollback leaves
the store as it was: no range is stored again, whatever the others are. -/
theorem putRanges_stored_ident_fails (st : Store) (rs : List Range) {r : Range} (hr : r ∈ rs)
    {row : RangeRow} (hrow : row ∈ st.range) (hid : int64Arg r.meta.ident = .ok row.id) :
    (∃ e, (st.putRanges rs).1 = .error e) ∧ (st.putRanges rs).2 = st := by
  unfold Store.putRanges
  split
  · exact ⟨⟨_, rfl⟩, rfl⟩
  next st' h => exact absurd hid (Store.putAll_fresh h r hr row hrow)

theorem putRanges_stored_ident_fails_active :
    ⟨⟨1, "", ""⟩, .subsuming, [], [], []⟩ ∈ [(⟨⟨1, "", ""⟩, .subsuming, [], [], []⟩ : Range)] ∧
    (⟨1, "", "", "RsActive"⟩ : RangeRow) ∈ [(⟨1, "", "", "RsActive"⟩ : RangeRow)] ∧
    int64Arg 1 = .ok 1 ∧
    (∃ e, ((⟨[⟨1, "", "", "RsActive"⟩], [], []⟩ : Store).putRanges
      [⟨⟨1, "", ""⟩, .subsuming, [], [], []⟩]).1 = .error e) ∧
    ((⟨[⟨1, "", "", "RsActive"⟩], [], []⟩ : Store).putRanges
      [⟨⟨1, "", ""⟩, .subsuming, [], [], []⟩]).2 = ⟨[⟨1, "", "", "RsActive"⟩], [], []⟩ :=
  ⟨List.mem_singleton_self _, List.mem_singleton_self _, rfl,
    putRanges_stored_ident_fails ⟨[⟨1, "", "", "RsActive"⟩], [], []⟩ _ (List.mem_singleton_self _)
      (List.mem_singleton_self _) rfl⟩

/-- Range 1 stored `RsActive` into an empty store, then stored again `RsSubsuming`: the second
`PutRanges` fails on the primary key of `range` and rolls back, and `GetRanges` still returns the
first version. -/
theorem putRanges_again_keeps_first :
    Store.empty.putRanges [⟨⟨1, "", ""⟩, .active, [], [], []⟩] =
      (.ok (), ⟨[⟨1, "", "", "RsActive"⟩], [], []⟩) ∧
    (⟨[⟨1, "", "", "RsActive"⟩], [], []⟩ : Store).putRanges
        [⟨⟨1, "", ""⟩, .subsuming, [], [], []⟩] =
      (.error (.unique "range"), ⟨[⟨1, "", "", "RsActive"⟩], [], []⟩) ∧
    (⟨[⟨1, "", "", "RsActive"⟩], [], []⟩ : Store).getRanges =
      .ok [⟨⟨1, "", ""⟩, .active, [], [], []⟩] := by
  decide

end Ranger.Persister
