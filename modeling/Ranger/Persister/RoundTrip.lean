/-
What `PutRanges` writes and what `GetRanges` reads back, over any run of `PutRanges` calls from an
empty store (`Wrote`). A store a run reaches holds exactly the rows of the ranges its successful
calls put, and those ranges are `Storable`: every ident they name fits an `INTEGER`, no two have
one ident, no link is recorded twice and no range has two placements on one node
(`Wrote.storable`). The next call succeeds exactly when its ranges keep this so
(`wrote_putRanges_ok_iff`); `GetRanges` reads back every committed range, in the order of
their idents, with its meta and state as written, its placements in the order of their nodes, as
parents the links that either side recorded in the order they were written, and as children
those links in the order of the children's idents (`wrote_getRanges`).

Each table keeps its primary key unique (`Store.Keyed`), and a run of inserts from a keyed store
succeeds exactly when the rows it appends keep it so; `putAll_ok` says this once for the whole loop.
-/
import Ranger.Persister.Sql

namespace Ranger.Persister

open Api

/-! ## The rows a range is written as -/

/-- The links `(parent, child)` a range records, in the order `PutRanges` inserts them: its
parents, then its children. -/
def Range.links (r : Range) : List (UInt64 × UInt64) :=
  r.parents.map (·, r.meta.ident) ++ r.children.map (r.meta.ident, ·)

/-- The links of all the ranges. -/
def links (rs : List Range) : List (UInt64 × UInt64) := rs.flatMap Range.links

/-- The parents of `id` that some range records: a parent of its own, or a range naming it as a
child. -/
def parentsIn (rs : List Range) (id : UInt64) : List UInt64 :=
  ((links rs).filter (·.2 == id)).map (·.1)

/-- The children of `id` that some range records. -/
def childrenIn (rs : List Range) (id : UInt64) : List UInt64 :=
  ((links rs).filter (·.1 == id)).map (·.2)

/-- The row of `range` for `r`. -/
def rangeRow (r : Range) : RangeRow := ⟨r.meta.ident.toNat, r.meta.start, r.meta.end, r.state.toString⟩

/-- The row of `child` for a link. -/
def childRow (l : UInt64 × UInt64) : ChildRow := ⟨l.1.toNat, l.2.toNat⟩

/-- The row of `placement` for a placement of range `id`. -/
def placementRow (id : Int) (p : Placement) : PlacementRow :=
  ⟨id, p.nodeID, p.stateCurrent.toString, p.stateDesired.toString⟩

/-- The rows of `placement` for the placements of `r`. -/
def Range.placementRows (r : Range) : List PlacementRow := r.placements.map (placementRow r.meta.ident.toNat)

/-- The primary key of `placement`. -/
def PlacementRow.key (row : PlacementRow) : Int × String := (row.rangeId, row.nodeId)

/-- Every ident `r` names is passed as an `INTEGER`. -/
def Range.Bounded (r : Range) : Prop := ∀ u ∈ r.meta.ident :: (r.parents ++ r.children), u.toNat < 2 ^ 63

instance instDecidablePredBounded : DecidablePred Range.Bounded := fun r =>
  inferInstanceAs (Decidable (∀ u ∈ r.meta.ident :: (r.parents ++ r.children), u.toNat < 2 ^ 63))

/-- The ranges `PutRanges` stores into an empty store. -/
structure Storable (rs : List Range) : Prop where
  bounded : ∀ r ∈ rs, r.Bounded
  ident_nodup : (rs.map (·.meta.ident)).Nodup
  links_nodup : (links rs).Nodup
  nodeID_nodup : ∀ r ∈ rs, (r.placements.map (·.nodeID)).Nodup

theorem toNat_inj {a b : UInt64} : a.toNat = b.toNat ↔ a = b :=
  ⟨UInt64.toNat.inj, congrArg _⟩

theorem toNat_cast_inj {a b : UInt64} : (a.toNat : Int) = b.toNat ↔ a = b :=
  Int.ofNat_inj.trans toNat_inj

/-- Passing idents as `INTEGER`s keeps their order. -/
theorem toNat_cast_le {a b : UInt64} : (a.toNat : Int) ≤ b.toNat ↔ a ≤ b := by
  rw [Int.ofNat_le, UInt64.le_def, BitVec.le_def]
  rfl

theorem childRow_injective : Function.Injective childRow := by
  rintro ⟨a, b⟩ ⟨c, d⟩ h
  simp only [childRow, ChildRow.mk.injEq, toNat_cast_inj] at h
  rw [h.1, h.2]

theorem bounded_links {r : Range} (h : r.Bounded) :
    ∀ l ∈ r.links, l.1.toNat < 2 ^ 63 ∧ l.2.toNat < 2 ^ 63 := by
  simp only [Range.Bounded, List.mem_cons, List.mem_append, forall_eq_or_imp] at h
  simp only [Range.links, List.mem_append, List.mem_map]
  rintro _ (⟨p, hp, rfl⟩ | ⟨c, hc, rfl⟩)
  exacts [⟨h.2 p (.inl hp), h.1⟩, ⟨h.1, h.2 c (.inr hc)⟩]

namespace Store

/-- `st` with the rows `PutRanges` inserts for `rs` appended to its tables. -/
def write (st : Store) (rs : List Range) : Store :=
  ⟨st.range ++ rs.map rangeRow, st.child ++ (links rs).map childRow,
    st.placement ++ rs.flatMap Range.placementRows⟩

@[simp] theorem write_nil (st : Store) : st.write [] = st := by
  cases st; simp [write, links]

theorem write_write (st : Store) (rs₁ rs₂ : List Range) :
    (st.write rs₁).write rs₂ = st.write (rs₁ ++ rs₂) := by
  simp [write, links]

/-- No two rows of a table share its primary key. -/
structure Keyed (st : Store) : Prop where
  range : (st.range.map (·.id)).Nodup
  child : st.child.Nodup
  placement : (st.placement.map PlacementRow.key).Nodup

theorem keyed_empty : empty.Keyed := ⟨.nil, .nil, .nil⟩

theorem Keyed.of_write {st : Store} {rs : List Range} (h : (st.write rs).Keyed) : st.Keyed :=
  ⟨(List.nodup_append.1 (List.map_append _ _ _ ▸ h.range)).1, (List.nodup_append.1 h.child).1,
    (List.nodup_append.1 (List.map_append _ _ _ ▸ h.placement)).1⟩

/-! ## One insert -/

theorem insertRange_ok {st st' : Store} {row : RangeRow} :
    st.insertRange row = .ok st' ↔
      row.id ∉ st.range.map (·.id) ∧ st' = { st with range := st.range ++ [row] } := by
  have hany : st.range.any (·.id == row.id) = true ↔ row.id ∈ st.range.map (·.id) := by simp
  unfold insertRange
  split_ifs with h
  · simp [hany.1 h]
  · simp only [Except.ok.injEq, hany.not.1 h, not_false_eq_true, true_and]; exact eq_comm

theorem insertChild_ok {st st' : Store} {l : UInt64 × UInt64} :
    st.insertChild l.1 l.2 = .ok st' ↔ (l.1.toNat < 2 ^ 63 ∧ l.2.toNat < 2 ^ 63) ∧
      childRow l ∉ st.child ∧ st' = { st with child := st.child ++ [childRow l] } := by
  unfold insertChild int64Arg
  by_cases h₁ : l.1.toNat < 2 ^ 63 <;> by_cases h₂ : l.2.toNat < 2 ^ 63 <;>
    simp only [h₁, h₂, if_true, if_false]
  · have hany : st.child.any (· == childRow l) = true ↔ childRow l ∈ st.child := by simp
    split_ifs with h
    · simp [hany.1 h]
    · simp only [Except.ok.injEq, hany.not.1 h, not_false_eq_true, true_and, and_self]
      exact eq_comm
  all_goals simp

theorem insertPlacement_ok {st st' : Store} {id : Int} {p : Placement} :
    st.insertPlacement id p = .ok st' ↔ (placementRow id p).key ∉ st.placement.map PlacementRow.key ∧
      st' = { st with placement := st.placement ++ [placementRow id p] } := by
  have hany : (st.placement.any fun row => row.rangeId == id && row.nodeId == p.nodeID) = true ↔
      (placementRow id p).key ∈ st.placement.map PlacementRow.key := by
    simp [placementRow, PlacementRow.key]
  unfold insertPlacement
  split_ifs with h
  · simp [hany.1 h]
  · simp only [Except.ok.injEq, hany.not.1 h, not_false_eq_true, true_and]; exact eq_comm

/-! ## The loops of `PutRanges` -/

/-- One `insertChild` per link, stopping at the first error: the loops of `PutRanges` over
`r.Parents` and over `r.Children` are this loop over the links they record. -/
def insertLinks : Store → List (UInt64 × UInt64) → Except SqlError Store
  | st, [] => .ok st
  | st, l :: ls => match st.insertChild l.1 l.2 with
    | .error e => .error e
    | .ok st' => insertLinks st' ls

theorem insertParents_eq (id : UInt64) :
    ∀ (st : Store) (ps : List UInt64), insertParents id st ps = insertLinks st (ps.map (·, id))
  | _, [] => rfl
  | st, p :: ps => by
    cases h : st.insertChild p id <;> simp [insertParents, insertLinks, h, insertParents_eq id]

theorem insertChildren_eq (id : UInt64) :
    ∀ (st : Store) (cs : List UInt64), insertChildren id st cs = insertLinks st (cs.map (id, ·))
  | _, [] => rfl
  | st, c :: cs => by
    cases h : st.insertChild id c <;> simp [insertChildren, insertLinks, h, insertChildren_eq id]

/-- From a `child` table with no repeated row, inserting links succeeds exactly when every
ident is passed and the rows appended repeat none; only `child` changes. -/
theorem insertLinks_ok {ls : List (UInt64 × UInt64)} :
    ∀ {rg : List RangeRow} {c : List ChildRow} {pl : List PlacementRow} {st' : Store}, c.Nodup →
    (insertLinks ⟨rg, c, pl⟩ ls = .ok st' ↔ (∀ l ∈ ls, l.1.toNat < 2 ^ 63 ∧ l.2.toNat < 2 ^ 63) ∧
      (c ++ ls.map childRow).Nodup ∧ st' = ⟨rg, c ++ ls.map childRow, pl⟩) := by
  induction ls with
  | nil => intro rg c pl st' hk; simp [insertLinks, hk, eq_comm]
  | cons l ls ih =>
    intro rg c pl st' hk
    simp only [insertLinks]
    cases h : insertChild ⟨rg, c, pl⟩ l.1 l.2 with
    | error e =>
      simp only [reduceCtorEq, false_iff, not_and]
      intro hb hnd _
      have hfresh : childRow l ∉ c := fun hm =>
        (List.nodup_append.1 hnd).2.2 hm (List.mem_cons_self _ _)
      cases h.symm.trans (insertChild_ok.2 ⟨hb l (List.mem_cons_self _ _), hfresh, rfl⟩)
    | ok st₁ =>
      obtain ⟨hb, hfresh, rfl⟩ := insertChild_ok.1 h
      rw [ih (List.nodup_append.2 ⟨hk, List.nodup_singleton _, by simpa using hfresh⟩)]
      simp only [List.forall_mem_cons, hb, true_and, List.append_assoc, List.singleton_append,
        List.map_cons]

/-- From a `placement` table with no repeated key, inserting the placements of range `id`
succeeds exactly when the rows appended repeat no key; only `placement` changes. -/
theorem insertPlacements_ok {id : Int} {ps : List Placement} :
    ∀ {rg : List RangeRow} {c : List ChildRow} {pl : List PlacementRow} {st' : Store},
    (pl.map PlacementRow.key).Nodup →
    (insertPlacements id ⟨rg, c, pl⟩ ps = .ok st' ↔
      ((pl ++ ps.map (placementRow id)).map PlacementRow.key).Nodup ∧
      st' = ⟨rg, c, pl ++ ps.map (placementRow id)⟩) := by
  induction ps with
  | nil => intro rg c pl st' hk; simp [insertPlacements, hk, eq_comm]
  | cons p ps ih =>
    intro rg c pl st' hk
    simp only [insertPlacements]
    cases h : insertPlacement ⟨rg, c, pl⟩ id p with
    | error e =>
      simp only [reduceCtorEq, false_iff, not_and]
      intro hnd _
      have hfresh : (placementRow id p).key ∉ pl.map PlacementRow.key := fun hm =>
        (List.nodup_append.1 (List.map_append _ _ _ ▸ hnd)).2.2 hm (List.mem_cons_self _ _)
      cases h.symm.trans (insertPlacement_ok.2 ⟨hfresh, rfl⟩)
    | ok st₁ =>
      obtain ⟨hfresh, rfl⟩ := insertPlacement_ok.1 h
      rw [ih (by simpa [List.nodup_append, hk] using hfresh)]
      simp [List.append_assoc]

/-! ## `PutRanges` -/

theorem int64Arg_ok {u : UInt64} {v : Int} : int64Arg u = .ok v ↔ u.toNat < 2 ^ 63 ∧ v = u.toNat := by
  unfold int64Arg
  split_ifs with h
  · simp only [Except.ok.injEq, h, true_and]; exact eq_comm
  · simp only [reduceCtorEq, false_iff, not_and]; exact fun h' => absurd h' h

/-- From a keyed store, `putRange` succeeds exactly when every ident of the range is passed and
its rows keep every table keyed; it then appends those rows. -/
theorem putRange_ok {st st' : Store} {r : Range} (hk : st.Keyed) :
    st.putRange r = .ok st' ↔ r.Bounded ∧ (st.write [r]).Keyed ∧ st' = st.write [r] := by
  have hlinks : (st.write [r]).child =
      st.child ++ (r.parents.map (·, r.meta.ident)).map childRow ++
        (r.children.map (r.meta.ident, ·)).map childRow := by
    simp [write, links, Range.links]
  constructor
  · intro h
    unfold putRange at h
    split at h; · cases h
    next id hid =>
    split at h; · cases h
    next st₁ h₁ =>
    split at h; · cases h
    next st₂ h₂ =>
    split at h; · cases h
    next st₃ h₃ =>
    obtain ⟨hb, rfl⟩ := int64Arg_ok.1 hid
    obtain ⟨hfresh, rfl⟩ := insertRange_ok.1 h₁
    rw [insertParents_eq] at h₂
    obtain ⟨hpb, hpnd, rfl⟩ := (insertLinks_ok hk.child).1 h₂
    rw [insertChildren_eq] at h₃
    obtain ⟨hcb, hcnd, rfl⟩ := (insertLinks_ok hpnd).1 h₃
    obtain ⟨hpl, rfl⟩ := (insertPlacements_ok hk.placement).1 h
    simp only [List.forall_mem_map] at hpb hcb
    refine ⟨?bounded, ⟨?range, ?child, ?placement⟩, ?eq⟩
    case bounded =>
      simp only [Range.Bounded, List.forall_mem_cons, List.forall_mem_append]
      exact ⟨hb, fun p hp => (hpb p hp).1, fun c hc => (hcb c hc).2⟩
    case range => simpa [write, List.nodup_append, hk.range, rangeRow] using hfresh
    case child => rw [hlinks]; exact hcnd
    case placement => simpa [write, Range.placementRows] using hpl
    case eq => simp [write, links, Range.links, Range.placementRows, rangeRow]
  · rintro ⟨hb, hk', rfl⟩
    have hid : int64Arg r.meta.ident = .ok r.meta.ident.toNat :=
      int64Arg_ok.2 ⟨hb _ (List.mem_cons_self _ _), rfl⟩
    have h₁ : st.insertRange ⟨r.meta.ident.toNat, r.meta.start, r.meta.end, r.state.toString⟩ =
        .ok { st with range := st.range ++ [rangeRow r] } :=
      insertRange_ok.2 ⟨by simpa [write, List.nodup_append, hk.range] using hk'.range, rfl⟩
    have hc := hk'.child
    rw [hlinks] at hc
    have hpl := hk'.placement
    simp only [write, List.flatMap_cons, List.flatMap_nil, List.append_nil, Range.placementRows]
      at hpl
    rw [putRange, hid]
    simp only [h₁, insertParents_eq, insertChildren_eq,
      (insertLinks_ok hk.child).2 ⟨fun l hl => bounded_links hb l (List.mem_append_left _ hl),
        (List.nodup_append.1 hc).1, rfl⟩,
      (insertLinks_ok (List.nodup_append.1 hc).1).2
        ⟨fun l hl => bounded_links hb l (List.mem_append_right _ hl), hc, rfl⟩,
      (insertPlacements_ok hk.placement).2 ⟨hpl, rfl⟩]
    simp [write, links, Range.links, Range.placementRows, rangeRow]

/-- From a keyed store, `putAll` succeeds exactly when every ident of every range is passed and
the rows of all the ranges keep every table keyed; it then appends those rows. -/
theorem putAll_ok {rs : List Range} : ∀ {st st' : Store}, st.Keyed →
    (st.putAll rs = .ok st' ↔ (∀ r ∈ rs, r.Bounded) ∧ (st.write rs).Keyed ∧ st' = st.write rs) := by
  induction rs with
  | nil => intro st st' hk; simp [putAll, hk, eq_comm]
  | cons r rs ih =>
    intro st st' hk
    simp only [putAll]
    cases h : st.putRange r with
    | error e =>
      simp only [reduceCtorEq, false_iff, not_and]
      intro hb hk' _
      have hk₁ : (st.write [r]).Keyed :=
        (show ((st.write [r]).write rs).Keyed by rw [write_write]; exact hk').of_write
      cases h.symm.trans ((putRange_ok hk).2 ⟨hb r (List.mem_cons_self _ _), hk₁, rfl⟩)
    | ok st₁ =>
      obtain ⟨hb, hk₁, rfl⟩ := (putRange_ok hk).1 h
      rw [ih hk₁, write_write]
      simp only [List.forall_mem_cons, hb, true_and, List.singleton_append]

/-! ## Storable ranges -/

/-- The placement keys of ranges with distinct idents repeat exactly when one range has two
placements on one node. -/
theorem placement_keys_nodup {rs : List Range} (hnd : (rs.map (·.meta.ident)).Nodup) :
    ((rs.flatMap Range.placementRows).map PlacementRow.key).Nodup ↔
      ∀ r ∈ rs, (r.placements.map (·.nodeID)).Nodup := by
  have hkeys : ∀ r : Range, r.placementRows.map PlacementRow.key =
      (r.placements.map (·.nodeID)).map ((r.meta.ident.toNat : Int), ·) := by
    intro r; simp [Range.placementRows, placementRow, PlacementRow.key]
  have hdisj : rs.Pairwise fun a b => (a.placementRows.map PlacementRow.key).Disjoint
      (b.placementRows.map PlacementRow.key) := by
    refine (List.pairwise_map.1 hnd).imp fun hab x hxa hxb => hab ?_
    rw [hkeys, List.map_map] at hxa hxb
    obtain ⟨_, -, rfl⟩ := List.mem_map.1 hxa
    obtain ⟨_, -, he⟩ := List.mem_map.1 hxb
    exact (toNat_cast_inj.1 (Prod.mk.inj he).1).symm
  rw [List.map_flatMap, List.nodup_flatMap]
  simp only [hkeys, List.nodup_map_iff (Prod.mk.inj_left _)]
  exact ⟨And.left, fun h => ⟨h, by simpa only [hkeys] using hdisj⟩⟩

/-- Storable ranges are those whose idents are all passed and whose rows, written into an empty
store, keep every table keyed. -/
theorem storable_iff {rs : List Range} :
    Storable rs ↔ (∀ r ∈ rs, r.Bounded) ∧ (empty.write rs).Keyed := by
  have hrange : ((empty.write rs).range.map (·.id)) =
      (rs.map (·.meta.ident)).map fun u : UInt64 => (u.toNat : Int) := by
    simp [empty, write, rangeRow]
  have hinj : Function.Injective fun u : UInt64 => (u.toNat : Int) := fun _ _ h => toNat_cast_inj.1 h
  constructor
  · rintro ⟨hb, hr, hc, hp⟩
    refine ⟨hb, ⟨?_, ?_, ?_⟩⟩
    · rw [hrange, List.nodup_map_iff hinj]; exact hr
    · simpa [empty, write] using hc.map childRow_injective
    · simpa [empty, write] using (placement_keys_nodup hr).2 hp
  · rintro ⟨hb, ⟨hr, hc, hp⟩⟩
    rw [hrange, List.nodup_map_iff hinj] at hr
    simp only [empty, write, List.nil_append] at hc hp
    exact ⟨hb, hr, (List.nodup_map_iff childRow_injective).1 hc, (placement_keys_nodup hr).1 hp⟩

/-- From the rows of storable ranges, `putAll` succeeds exactly when the new ranges are storable
together with those, and appends their rows. -/
theorem putAll_write_ok {rs new : List Range} {st' : Store} (hs : Storable rs) :
    (empty.write rs).putAll new = .ok st' ↔
      Storable (rs ++ new) ∧ st' = empty.write (rs ++ new) := by
  rw [putAll_ok (storable_iff.1 hs).2, write_write, storable_iff, List.forall_mem_append]
  simp only [iff_true_intro hs.bounded, true_and, and_assoc]

/-! ## Reading back -/

theorem scanRangeID_toNat (u : UInt64) : scanRangeID u.toNat = .ok u := by
  simp only [scanRangeID, Int.natCast_nonneg, not_lt.2, if_false, Int.toNat_ofNat]
  exact congrArg _ (UInt64.toNat.inj (UInt64.toNat_ofNat_of_lt u.toNat_lt_size))

/-- The id `GetRanges` reads from a row of `range` holding `u`. -/
theorem ofNat_rangeRow_id (u : UInt64) : UInt64.ofNat (((u.toNat : Int) % 2 ^ 64).toNat) = u := by
  have hlt : u.toNat < 2 ^ 64 := u.toNat_lt_size
  rw [Int.emod_eq_of_lt (Int.natCast_nonneg _) (by omega), Int.toNat_ofNat]
  exact UInt64.toNat.inj (UInt64.toNat_ofNat_of_lt u.toNat_lt_size)

theorem mapM_map_ok {α β γ : Type} {l : List α} (key : α → β) (f : β → Except SqlError γ)
    (g : α → γ) (h : ∀ a ∈ l, f (key a) = .ok (g a)) : (l.map key).mapM f = .ok (l.map g) := by
  induction l with
  | nil => rfl
  | cons a l ih =>
    simp only [List.map_cons, List.mapM_cons, h a (List.mem_cons_self _ _),
      ih fun b hb => h b (List.mem_cons_of_mem _ hb)]
    rfl

theorem getParents_write {rs : List Range} {u : UInt64} (hu : u.toNat < 2 ^ 63) :
    (empty.write rs).getParents u = .ok (parentsIn rs u) := by
  rw [getParents, int64Arg_ok.2 ⟨hu, rfl⟩]
  simp only [empty, write, List.nil_append, List.filter_map, List.map_map, parentsIn]
  rw [show ((·.childId == (u.toNat : Int)) ∘ childRow) = (·.2 == u) from
    funext fun l => by simp [childRow, toNat_inj]]
  exact mapM_map_ok _ _ _ fun l _ => scanRangeID_toNat l.1

theorem getChildren_write {rs : List Range} {u : UInt64} (hu : u.toNat < 2 ^ 63) :
    (empty.write rs).getChildren u = .ok ((childrenIn rs u).insertionSort (· ≤ ·)) := by
  rw [getChildren, int64Arg_ok.2 ⟨hu, rfl⟩]
  dsimp only
  have hrows : ((empty.write rs).child.filter (·.parentId == (u.toNat : Int))).map (·.childId) =
      (childrenIn rs u).map fun c : UInt64 => (c.toNat : Int) := by
    simp only [empty, write, List.nil_append, List.filter_map, List.map_map, childrenIn]
    rw [show ((·.parentId == (u.toNat : Int)) ∘ childRow) = (·.1 == u) from
      funext fun l => by simp [childRow, toNat_inj]]
    rfl
  rw [hrows, ← List.map_insertionSort (· ≤ ·) (· ≤ ·) _ _ fun _ _ _ _ => toNat_cast_le.symm]
  simpa using mapM_map_ok (fun c : UInt64 => (c.toNat : Int)) scanRangeID id
    fun c _ => scanRangeID_toNat c

/-- Of the placement rows of ranges with distinct idents, those of `r`'s ident are `r`'s. -/
theorem placementRows_filter {rs : List Range} (hnd : (rs.map (·.meta.ident)).Nodup) {r : Range}
    (hr : r ∈ rs) :
    (rs.flatMap Range.placementRows).filter (·.rangeId == (r.meta.ident.toNat : Int)) =
      r.placementRows := by
  have hrows : ∀ r' : Range, r'.placementRows.filter (·.rangeId == (r.meta.ident.toNat : Int)) =
      if r'.meta.ident = r.meta.ident then r'.placementRows else [] := by
    intro r'
    split_ifs with he
    · exact List.filter_eq_self.2 fun row hrow => by
        obtain ⟨p, -, rfl⟩ := List.mem_map.1 hrow; simp [placementRow, he]
    · exact List.filter_eq_nil_iff.2 fun row hrow => by
        obtain ⟨p, -, rfl⟩ := List.mem_map.1 hrow
        simpa [placementRow, toNat_inj] using he
  rw [List.filter_flatMap]
  simp only [hrows]
  induction rs with
  | nil => cases hr
  | cons r' rs ih =>
    obtain ⟨hr', hnd⟩ := List.nodup_cons.1 hnd
    rw [List.flatMap_cons]
    rcases List.mem_cons.1 hr with rfl | hr
    · rw [if_pos rfl, List.flatMap_eq_nil_iff.2 fun r'' h'' => if_neg fun he =>
        hr' (List.mem_map.2 ⟨r'', h'', he⟩), List.append_nil]
    · rw [if_neg fun he : r'.meta.ident = r.meta.ident => hr' (List.mem_map.2 ⟨r, hr, he.symm⟩),
        List.nil_append, ih hnd hr]

theorem getPlacements_write {rs : List Range} (hnd : (rs.map (·.meta.ident)).Nodup) {r : Range}
    (hr : r ∈ rs) (hu : r.meta.ident.toNat < 2 ^ 63) :
    (empty.write rs).getPlacements r.meta.ident =
      .ok (r.placements.insertionSort fun a b => binaryLE a.nodeID.data b.nodeID.data) := by
  rw [getPlacements, int64Arg_ok.2 ⟨hu, rfl⟩]
  simp only [empty, write, List.nil_append, placementRows_filter hnd hr, Range.placementRows]
  rw [← List.map_insertionSort (fun a b : Placement => binaryLE a.nodeID.data b.nodeID.data)
    (fun a b : PlacementRow => binaryLE a.nodeId.data b.nodeId.data) _ _ fun _ _ _ _ => Iff.rfl,
    List.map_map]
  refine congrArg Except.ok ((List.map_congr_left fun p _ => ?_).trans (List.map_id _))
  simp [placementRow]

/-- `GetRanges` of the rows `PutRanges` writes for ranges with distinct idents, each passed as an
`INTEGER`. -/
theorem getRanges_write {rs : List Range} (hb : ∀ r ∈ rs, r.meta.ident.toNat < 2 ^ 63)
    (hnd : (rs.map (·.meta.ident)).Nodup) :
    (empty.write rs).getRanges =
      .ok ((rs.insertionSort fun a b => a.meta.ident ≤ b.meta.ident).map fun r =>
        { r with
          parents := parentsIn rs r.meta.ident,
          children := (childrenIn rs r.meta.ident).insertionSort (· ≤ ·),
          placements :=
            r.placements.insertionSort fun a b => binaryLE a.nodeID.data b.nodeID.data }) := by
  rw [getRanges, show (empty.write rs).range = rs.map rangeRow by simp [empty, write],
    ← List.map_insertionSort (fun a b : Range => a.meta.ident ≤ b.meta.ident)
      (fun a b : RangeRow => a.id ≤ b.id) _ _ fun _ _ _ _ => toNat_cast_le.symm]
  refine mapM_map_ok _ _ _ fun r hr => ?_
  have hr' := (List.mem_insertionSort _).1 hr
  simp only [getRange, rangeRow, ofNat_rangeRow_id, getParents_write (hb r hr'),
    getChildren_write (hb r hr'), getPlacements_write hnd hr' (hb r hr'),
    parseRangeStateString_toString]

end Store

/-! ## Runs of `PutRanges` -/

namespace Store

/-- `PutRanges` commits what `putAll` leaves. -/
theorem putRanges_eq_ok {st st' : Store} {rs : List Range} :
    st.putRanges rs = (.ok (), st') ↔ st.putAll rs = .ok st' := by
  unfold putRanges
  cases st.putAll rs <;> simp

/-- A `PutRanges` that fails is rolled back. -/
theorem putRanges_eq_error {st st' : Store} {rs : List Range} {e : SqlError}
    (h : st.putRanges rs = (.error e, st')) : st' = st := by
  unfold putRanges at h
  split at h <;> cases h; rfl

end Store

/-- The stores a run of `PutRanges` calls from an empty store reaches, with the ranges the calls
that succeeded put, in order: a call that fails commits nothing. -/
inductive Wrote : List Range → Store → Prop
  | empty : Wrote [] Store.empty
  | ok {rs st st'} (new : List Range) : Wrote rs st → st.putRanges new = (.ok (), st') →
      Wrote (rs ++ new) st'
  | error {rs st st' e} (new : List Range) : Wrote rs st → st.putRanges new = (.error e, st') →
      Wrote rs st'

/-- A store a run reaches holds exactly the rows of the ranges it committed, and those ranges are
storable. -/
theorem Wrote.storable {rs : List Range} {st : Store} (hw : Wrote rs st) :
    Storable rs ∧ st = Store.empty.write rs := by
  induction hw with
  | empty => exact ⟨⟨by simp, List.nodup_nil, List.nodup_nil, by simp⟩, (Store.write_nil _).symm⟩
  | ok new _ hp ih =>
    obtain ⟨hs, rfl⟩ := ih
    exact (Store.putAll_write_ok hs).1 (Store.putRanges_eq_ok.1 hp)
  | error new _ hp ih => exact Store.putRanges_eq_error hp ▸ ih

/-- After any run, the next `PutRanges` succeeds exactly when the ranges it puts are storable
together with all those committed before: every ident passed, no ident stored twice, no link
recorded twice and no range with two placements on one node. -/
theorem wrote_putRanges_ok_iff {rs : List Range} {st : Store} (hw : Wrote rs st)
    (new : List Range) : (st.putRanges new).1 = .ok () ↔ Storable (rs ++ new) := by
  obtain ⟨hs, rfl⟩ := hw.storable
  unfold Store.putRanges
  cases h : (Store.empty.write rs).putAll new with
  | error e =>
    simp only [reduceCtorEq, false_iff]
    exact fun hs' => by cases h.symm.trans ((Store.putAll_write_ok hs).2 ⟨hs', rfl⟩)
  | ok st' => exact iff_of_true rfl ((Store.putAll_write_ok hs).1 h).1

/-- Range 1 is stored; storing it again fails whatever the new range is. -/
theorem wrote_putRanges_ok_iff_again :
    Wrote [⟨⟨1, "", ""⟩, .active, [], [], []⟩] ⟨[⟨1, "", "", "RsActive"⟩], [], []⟩ ∧
    (((⟨[⟨1, "", "", "RsActive"⟩], [], []⟩ : Store).putRanges
      [⟨⟨1, "", ""⟩, .subsuming, [], [], []⟩]).1 = .ok () ↔
      Storable [⟨⟨1, "", ""⟩, .active, [], [], []⟩, ⟨⟨1, "", ""⟩, .subsuming, [], [], []⟩]) :=
  have hw : Wrote [⟨⟨1, "", ""⟩, .active, [], [], []⟩] ⟨[⟨1, "", "", "RsActive"⟩], [], []⟩ :=
    .ok _ .empty rfl
  ⟨hw, wrote_putRanges_ok_iff hw _⟩

/-- After any run, `GetRanges` reads back the ranges committed, in the order of their idents,
with their meta and state as written, their placements in the order of their nodes, as parents
every link that either side recorded, in the order written, and as children every such link, in
the order of the children's idents. -/
theorem wrote_getRanges {rs : List Range} {st : Store} (hw : Wrote rs st) :
    st.getRanges = .ok ((rs.insertionSort fun a b => a.meta.ident ≤ b.meta.ident).map fun r =>
      { r with
        parents := parentsIn rs r.meta.ident,
        children := (childrenIn rs r.meta.ident).insertionSort (· ≤ ·),
        placements :=
          r.placements.insertionSort fun a b => binaryLE a.nodeID.data b.nodeID.data }) := by
  obtain ⟨hs, rfl⟩ := hw.storable
  exact Store.getRanges_write (fun r hr => hs.bounded r hr _ (List.mem_cons_self _ _))
    hs.ident_nodup

/-- Range 2 is stored with children 4 and 3 and placements on nodes b and a, stored again and
rolled back, then range 1 is stored with child 2: the ranges are read back as 1 then 2, range 2
with parent 1, which only range 1 recorded, children 3 then 4, and placements on a then b. -/
theorem wrote_getRanges_rollback :
    Wrote [⟨⟨2, "m", ""⟩, .active, [], [4, 3], [⟨"b", .active, .active⟩, ⟨"a", .pending, .active⟩]⟩,
        ⟨⟨1, "", "m"⟩, .active, [], [2], []⟩]
      ⟨[⟨2, "m", "", "RsActive"⟩, ⟨1, "", "m", "RsActive"⟩], [⟨2, 4⟩, ⟨2, 3⟩, ⟨1, 2⟩],
        [⟨2, "b", "PsActive", "PsActive"⟩, ⟨2, "a", "PsPending", "PsActive"⟩]⟩ ∧
    Store.getRanges ⟨[⟨2, "m", "", "RsActive"⟩, ⟨1, "", "m", "RsActive"⟩], [⟨2, 4⟩, ⟨2, 3⟩, ⟨1, 2⟩],
        [⟨2, "b", "PsActive", "PsActive"⟩, ⟨2, "a", "PsPending", "PsActive"⟩]⟩ =
      .ok [⟨⟨1, "", "m"⟩, .active, [], [2], []⟩,
        ⟨⟨2, "m", ""⟩, .active, [1], [3, 4], [⟨"a", .pending, .active⟩, ⟨"b", .active, .active⟩]⟩] :=
  have hw : Wrote [⟨⟨2, "m", ""⟩, .active, [], [4, 3],
        [⟨"b", .active, .active⟩, ⟨"a", .pending, .active⟩]⟩, ⟨⟨1, "", "m"⟩, .active, [], [2], []⟩]
      ⟨[⟨2, "m", "", "RsActive"⟩, ⟨1, "", "m", "RsActive"⟩], [⟨2, 4⟩, ⟨2, 3⟩, ⟨1, 2⟩],
        [⟨2, "b", "PsActive", "PsActive"⟩, ⟨2, "a", "PsPending", "PsActive"⟩]⟩ :=
    .ok [⟨⟨1, "", "m"⟩, .active, [], [2], []⟩]
      (.error [⟨⟨2, "m", ""⟩, .active, [], [4, 3], [⟨"b", .active, .active⟩, ⟨"a", .pending, .active⟩]⟩]
        (.ok [⟨⟨2, "m", ""⟩, .active, [], [4, 3], [⟨"b", .active, .active⟩, ⟨"a", .pending, .active⟩]⟩]
          .empty rfl) rfl) rfl
  ⟨hw, wrote_getRanges hw⟩

end Ranger.Persister
