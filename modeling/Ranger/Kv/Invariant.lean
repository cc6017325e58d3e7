/-
The kv node's representation invariant. `handle_effect` says in four shapes what any handled
request does to the node, and `handle_panic` when a handler panics; both are assembled from the
handlers' spec lemmas. The invariant `NodeInv` follows from them along every run from `New`:
the idents of the range slice are, up to order, the keys of the data map (so they are pairwise
distinct), and every key a range holds lies in the bounds of the range's metadata. The first half
rules out the panics of `Ranges.Remove`, `Info`, `Get` and `Put`.

A `TAKEN` range is frozen. No request without `Force` changes a held `TAKEN` range's data or
state, and only a `Drop` of it makes the node let go of it; so along every run without `Force` in
which the node keeps holding it, `Dump` returns the pairs it held when it was taken
(`taken_range_frozen`).
-/
import Ranger.Kv.Node

namespace Ranger.Kv

open Node

/-! ## What a request does -/

/-- What one handled request does to the node. -/
inductive Effect (n : Node) : Request → Node → Prop
  /-- Every error, and `Info`, `Dump` and `Get`. -/
  | same (req : Request) : Effect n req n
  /-- `Serve`, `Take` and `Put` rewrite a held range's data in place. A request without `Force`
  never rewrites a `TAKEN` range, and a key it adds lies in a range with the ident. -/
  | update (req : Request) {ident : RangeIdent} {rd rd' : RangeData}
      (hl : n.data.lookup ident = some rd) (hs : req.forceFree = true → rd.state ≠ .taken)
      (hk : ∀ k ∈ rd'.data, k ∈ rd.data ∨
        ∃ rm ∈ n.ranges.ranges, rm.ident = ident ∧ rm.contains k = true) :
      Effect n req (n.setRangeData ident rd')
  /-- `Drop` removes a held range, `TAKEN` unless forced. -/
  | drop {range : Option Pb.Ident} {force : Bool} {ident : RangeIdent} {rd : RangeData} {n' : Node}
      (hg : n.getRangeData range = .ok (ident, rd)) (hs : rd.state = .taken ∨ force = true)
      (hr : n.remove ident = some n') : Effect n (.drop range force) n'
  /-- `Give` adds a range the node does not hold, or holds with a failed fetch and first removes,
  with the data fetched for it. -/
  | give {req : GiveRequest} {fetches : List Fetch} {rm : RangeMeta} {rd : RangeData} {n₁ : Node}
      (hg : RangeData.given rm req.parents fetches = .ok rd)
      (hc : (n₁ = n ∧ n.data.lookup rm.ident = none) ∨ ∃ rd₀, n.data.lookup rm.ident = some rd₀ ∧
        rd₀.state = .fetchFailed ∧ n.remove rm.ident = some n₁) :
      Effect n (.give req fetches) (n₁.add rm rd)

theorem putValue_keys {data : KeyMap} {k k' : Key} {value : Option Bytes}
    (h : k' ∈ putValue data k value) : k' ∈ data ∨ k' = k := by
  cases value with
  | none => exact .inl (AList.mem_erase.1 h).2
  | some v => exact ((AList.mem_insert _).1 h).symm

/-- `Serve` and `Take` rewrite only the state of the range they look up, and only from a state
that `allowed` admits. -/
theorem moveState_effect {n : Node} (req : Request) (range : Option Pb.Ident)
    {allowed : StateRemote → Bool} (code : Code) (message : String) (target : StateRemote)
    (ha : ∀ s, allowed s = true → req.forceFree = true → s ≠ .taken) :
    Effect n req (n.moveState range allowed code message target).2 := by
  rcases moveState_node (n := n) range allowed code message target with h | ⟨_, _, hg, hs, h⟩
    <;> rw [h]
  · exact .same _
  · exact .update _ (getRangeData_ok hg).1 (ha _ hs) fun _ hk => .inl hk

theorem handle_effect {n n' : Node} {req : Request} {r : Except NodeError Response}
    (h : n.handle req = .ok (r, n')) : Effect n req n' := by
  cases req with
  | give req fetches =>
    simp only [handle] at h
    split at h
    · cases h
    · next hg =>
      cases h
      rcases give_ok hg with rfl | ⟨rm, rd, n₁, hg', rfl, hc⟩
      · exact .same _
      · exact .give hg' hc
  | serve range force =>
    simp only [handle, Except.ok.injEq, Prod.mk.injEq] at h
    obtain ⟨-, rfl⟩ := h
    exact moveState_effect _ range _ _ _ fun _ hs hf => by simp_all [Request.forceFree]
  | take range =>
    simp only [handle, Except.ok.injEq, Prod.mk.injEq] at h
    obtain ⟨-, rfl⟩ := h
    exact moveState_effect _ range _ _ _ fun _ hs _ => by simp_all
  | drop range force =>
    simp only [handle] at h
    split at h
    · cases h
    · next hd =>
      cases h
      rcases drop_ok hd with rfl | ⟨_, _, hg, -, hs, hr⟩
      · exact .same _
      · exact .drop hg hs hr
  | info =>
    simp only [handle] at h
    split at h <;> cases h
    exact .same _
  | dump range => cases h; exact .same _
  | get k =>
    simp only [handle] at h
    split at h <;> cases h
    exact .same _
  | put k value =>
    simp only [handle] at h
    split at h
    · cases h
    · next hp =>
      cases h
      rcases put_ok hp with rfl | ⟨_, _, hf, hs, rfl⟩
      · exact .same _
      · obtain ⟨hl, rm, hrm, hid, hk⟩ := findRangeData_ok hf
        refine .update _ hl (fun _ ht => by simp_all) fun k' hk' => ?_
        rcases putValue_keys hk' with h | rfl
        · exact .inl h
        · exact .inr ⟨rm, hrm, hid, hk⟩

/-- A handler panics only on a parent range that is nil, or where the range slice and the data
map disagree on an ident. -/
theorem handle_panic {n : Node} {req : Request} {p : Panic} (h : n.handle req = .error p) :
    p = .nilParentRange ∨ (∃ ident ∈ n.data, n.remove ident = none) ∨
      ∃ rm ∈ n.ranges.ranges, n.data.lookup rm.ident = none := by
  cases req with
  | give req fetches =>
    simp only [handle] at h
    split at h
    · next hg => cases h; exact (give_panic hg).imp_right .inl
    · cases h
  | drop range force =>
    simp only [handle] at h
    split at h
    · next hd => exact .inr (.inl (drop_panic hd))
    · cases h
  | info =>
    simp only [handle] at h
    split at h
    · next hi => exact .inr (.inr (rangeInfos_panic hi))
    · cases h
  | get k =>
    simp only [handle] at h
    split at h
    · next hg => exact .inr (.inr (get_panic hg))
    · cases h
  | put k value =>
    simp only [handle] at h
    split at h
    · next hp => exact .inr (.inr (put_panic hp))
    · cases h
  | serve | take | dump => cases h

/-! ## The invariant -/

/-- The node's representation invariant. -/
structure NodeInv (n : Node) : Prop where
  /-- The idents of the range slice are the keys of the data map, up to order. -/
  idents : n.ranges.idents.Perm n.data.keys
  /-- Every key held for an ident lies in every range with that ident. -/
  bounded : ∀ id rd, n.data.lookup id = some rd →
    ∀ rm ∈ n.ranges.ranges, rm.ident = id → ∀ k ∈ rd.data, rm.contains k = true

namespace NodeInv

variable {n n' : Node} {ident : RangeIdent} {rd : RangeData}

theorem nodup (h : NodeInv n) : n.ranges.idents.Nodup :=
  h.idents.nodup_iff.2 (AList.keys_nodup _)

theorem mem_iff (h : NodeInv n) : ident ∈ n.ranges.idents ↔ ident ∈ n.data :=
  h.idents.mem_iff.trans AList.mem_keys.symm

theorem eq_of_ident (h : NodeInv n) {rm rm' : RangeMeta} (hm : rm ∈ n.ranges.ranges)
    (hm' : rm' ∈ n.ranges.ranges) (he : rm.ident = rm'.ident) : rm = rm' :=
  List.inj_on_of_nodup_map h.nodup hm hm' he

theorem mem_idents {rm : RangeMeta} (hm : rm ∈ n.ranges.ranges) : rm.ident ∈ n.ranges.idents :=
  List.mem_map_of_mem _ hm

theorem setRangeData (h : NodeInv n) {rd' : RangeData} (hl : n.data.lookup ident = some rd)
    (hk : ∀ k ∈ rd'.data, k ∈ rd.data ∨
      ∃ rm ∈ n.ranges.ranges, rm.ident = ident ∧ rm.contains k = true) :
    NodeInv (n.setRangeData ident rd') where
  idents := by
    have hmem : ident ∈ n.data.keys := AList.mem_keys.1 (AList.lookup_isSome.1 (by simp [hl]))
    simpa [AList.keys_insert] using h.idents.trans (List.perm_cons_erase hmem)
  bounded id rd₁ hl₁ rm hrm hid k hk₁ := by
    simp only [setRangeData_data, setRangeData_ranges] at hl₁ hrm
    by_cases he : id = ident
    · subst he
      rw [AList.lookup_insert] at hl₁
      cases hl₁
      rcases hk k hk₁ with hk₁ | ⟨rm₀, hrm₀, hid₀, hc⟩
      · exact h.bounded _ _ hl rm hrm hid k hk₁
      · exact h.eq_of_ident hrm₀ hrm (hid₀.trans hid.symm) ▸ hc
    · rw [AList.lookup_insert_ne he] at hl₁
      exact h.bounded _ _ hl₁ rm hrm hid k hk₁

theorem remove (h : NodeInv n) (hr : n.remove ident = some n') : NodeInv n' where
  idents := by
    obtain ⟨hd, hrs⟩ := remove_spec hr
    have hp := Ranges.remove_idents hrs
    have hmem : ident ∈ n.data.keys := h.idents.subset (hp.symm.subset (List.mem_cons_self _ _))
    rw [hd, AList.keys_erase]
    exact (hp.symm.trans (h.idents.trans (List.perm_cons_erase hmem))).cons_inv
  bounded id rd₁ hl₁ rm hrm hid k hk := by
    obtain ⟨hd, hrs⟩ := remove_spec hr
    rw [hd] at hl₁
    have he : id ≠ ident := by rintro rfl; simp [AList.lookup_erase] at hl₁
    rw [AList.lookup_erase_ne he] at hl₁
    exact h.bounded _ _ hl₁ rm (Ranges.remove_subset hrs hrm) hid k hk

theorem add (h : NodeInv n) {rm : RangeMeta} (hn : rm.ident ∉ n.data)
    (hk : ∀ k ∈ rd.data, rm.contains k = true) : NodeInv (n.add rm rd) where
  idents := by
    simp only [add_ranges, add_data, AList.keys_insert, List.erase_of_not_mem (mt AList.mem_keys.2 hn)]
    simpa [Ranges.idents] using (h.idents.append_right [rm.ident]).trans
      (List.perm_append_singleton _ _)
  bounded id rd₁ hl₁ rm' hrm' hid k hk₁ := by
    simp only [add_data, add_ranges, Ranges.add_ranges, List.mem_append,
      List.mem_singleton] at hl₁ hrm'
    by_cases he : id = rm.ident
    · subst he
      rw [AList.lookup_insert] at hl₁
      cases hl₁
      rcases hrm' with hrm' | rfl
      · exact absurd (h.mem_iff.1 (hid ▸ mem_idents hrm')) hn
      · exact hk k hk₁
    · rw [AList.lookup_insert_ne he] at hl₁
      rcases hrm' with hrm' | rfl
      · exact h.bounded _ _ hl₁ rm' hrm' hid k hk₁
      · exact absurd hid.symm he

theorem step (h : NodeInv n) {req : Request} (he : Effect n req n') : NodeInv n' := by
  cases he with
  | same => exact h
  | update _ hl _ hk => exact h.setRangeData hl hk
  | drop _ _ hr => exact h.remove hr
  | give hg hc =>
    have hk := given_keys hg
    rcases hc with ⟨rfl, hl⟩ | ⟨_, _, _, hr⟩
    · exact h.add (AList.lookup_eq_none.1 hl) hk
    · refine (h.remove hr).add ?_ hk
      rw [(remove_spec hr).1]
      exact fun hm => (AList.mem_erase.1 hm).1 rfl

theorem new : NodeInv Node.new := ⟨by simp [Node.new, Ranges.idents], by simp [Node.new]⟩

theorem reach (hn : n.Reachable) : NodeInv n := by
  induction hn with
  | refl => exact new
  | tail _ hs ih =>
    obtain ⟨_, _, _, hh⟩ := hs
    exact ih.step (handle_effect hh)

/-- With the invariant no handler reaches the panics of `Ranges.Remove`, `Info`, `Get` or `Put`. -/
theorem handle_panic (h : NodeInv n) {req : Request} {p : Panic} (hp : n.handle req = .error p) :
    p = .nilParentRange := by
  rcases Kv.handle_panic hp with hp | ⟨ident, hm, hr⟩ | ⟨rm, hrm, hl⟩
  · exact hp
  · obtain ⟨_, hr'⟩ := remove_of_mem (h.mem_iff.2 hm)
    simp [hr] at hr'
  · exact absurd (h.mem_iff.1 (mem_idents hrm)) (AList.lookup_eq_none.1 hl)

end NodeInv

/-! ## Every reachable node -/

/-- In every node reachable from `New` the idents of the range slice are pairwise distinct and
are the keys of the data map, and no request panics but on a nil parent range. -/
theorem reachable_idents_match {n : Node} (hn : n.Reachable) :
    n.ranges.idents.Nodup ∧ (∀ id, id ∈ n.ranges.idents ↔ id ∈ n.data) ∧
      ∀ req p, n.handle req = .error p → p = .nilParentRange :=
  ⟨(NodeInv.reach hn).nodup, fun _ => (NodeInv.reach hn).mem_iff,
    fun _ _ => (NodeInv.reach hn).handle_panic⟩

/-- Range 0, `[ZeroKey, [3])`, holding `[1] ↦ [7]` and `TAKEN`, and range 1, `[[3], ZeroKey)`,
holding `[5] ↦ [8]`. -/
def takenNode : Node :=
  ⟨((∅ : AList fun _ : RangeIdent => RangeData).insert (keyIdent 1)
      ⟨AList.insert [5] [8] ∅, .ready⟩).insert ⟨List.replicate 40 0, rfl⟩
      ⟨AList.insert [1] [7] ∅, .taken⟩,
    ⟨[⟨⟨List.replicate 40 0, rfl⟩, [], [3]⟩, ⟨keyIdent 1, [3], []⟩]⟩⟩

/-- Two ranges given to a new node, a pair put to each, and range 0 taken. -/
theorem takenNode_reachable : takenNode.Reachable :=
  .tail (.tail (.tail (.tail (.single ⟨.give ⟨some ⟨none, [], [3]⟩, []⟩ [], .nil, _, rfl⟩)
        ⟨.give ⟨some ⟨some ⟨[], 1⟩, [3], []⟩, []⟩ [], .nil, _, rfl⟩)
      ⟨.put [1] (some [7]), trivial, _, rfl⟩) ⟨.put [5] (some [8]), trivial, _, rfl⟩)
    ⟨.take (some ⟨[], 0⟩), trivial, _, rfl⟩

/-- `takenNode` after `Drop` of range 0: `Ranges.Remove` overwrote the slot of range 0 with
range 1 and cut the last slot off. -/
def droppedNode : Node :=
  ⟨(∅ : AList fun _ : RangeIdent => RangeData).insert (keyIdent 1) ⟨AList.insert [5] [8] ∅, .ready⟩,
    ⟨[⟨keyIdent 1, [3], []⟩]⟩⟩

theorem reachable_idents_match_dropped :
    droppedNode.ranges.idents.Nodup ∧
      (∀ id, id ∈ droppedNode.ranges.idents ↔ id ∈ droppedNode.data) ∧
      ∀ req p, droppedNode.handle req = .error p → p = .nilParentRange :=
  reachable_idents_match (.tail takenNode_reachable ⟨.drop (some ⟨[], 0⟩) false, trivial, _, rfl⟩)

/-- In every node reachable from `New`, a range's data has a range with its ident, and every key
in the data lies in the bounds of that range. -/
theorem reachable_keys_in_range {n : Node} (hn : n.Reachable) {id : RangeIdent} {rd : RangeData}
    (hl : n.data.lookup id = some rd) :
    (∃ rm ∈ n.ranges.ranges, rm.ident = id) ∧
      ∀ rm ∈ n.ranges.ranges, rm.ident = id → ∀ k ∈ rd.data, rm.contains k = true := by
  have h := NodeInv.reach hn
  have hm : id ∈ n.ranges.idents := h.mem_iff.2 (AList.lookup_isSome.1 (by simp [hl]))
  exact ⟨List.mem_map.1 hm, h.bounded id rd hl⟩

/-- After `Give` of a fresh range with the zero ident and `Put` of `[1]`. -/
theorem reachable_keys_in_range_after_put :
    RangeMeta.contains ⟨⟨List.replicate 40 0, rfl⟩, [], []⟩ [1] = true :=
  (@reachable_keys_in_range _
    (.tail (.single ⟨.give ⟨some ⟨none, [], []⟩, []⟩ [], ⟨.nil, _, rfl⟩⟩)
      ⟨.put [1] (some [7]), ⟨trivial, _, rfl⟩⟩)
    ⟨List.replicate 40 0, rfl⟩ ⟨AList.insert [1] [7] ∅, .ready⟩ rfl).2
    ⟨⟨List.replicate 40 0, rfl⟩, [], []⟩ (List.mem_singleton_self _) rfl [1]
    ((AList.mem_insert _).2 (.inl rfl))

/-! ## A taken range is frozen -/

/-- A request without `Force` after which the node still holds the range `id`. -/
def HeldStep (id : RangeIdent) (n n' : Node) : Prop :=
  ∃ req, req.forceFree = true ∧ n.Step req n' ∧ id ∈ n'.data

section

variable {id : RangeIdent} {rd : RangeData} {n n' : Node} {req : Request}

theorem lookup_remove_ne {ident : RangeIdent} (hr : n.remove ident = some n') (he : id ≠ ident) :
    n'.data.lookup id = n.data.lookup id := by
  rw [(remove_spec hr).1, AList.lookup_erase_ne he]

/-- One request without `Force` keeps a held `TAKEN` range as it is, or is a `Drop` of it. -/
theorem taken_step (he : Effect n req n') (hf : req.forceFree = true)
    (hl : n.data.lookup id = some rd) (ht : rd.state = .taken) :
    n'.data.lookup id = some rd ∨ n'.data.lookup id = none ∧ ∃ range, req = .drop range false := by
  cases he with
  | same => exact .inl hl
  | @update _ ident _ _ hl' hs =>
    have hne : id ≠ ident := by
      rintro rfl
      exact hs hf (Option.some.inj (hl'.symm.trans hl) ▸ ht)
    exact .inl (by rw [setRangeData_data, AList.lookup_insert_ne hne, hl])
  | @drop range _ ident _ _ _ _ hr =>
    by_cases hne : id = ident
    · subst hne
      refine .inr ⟨by rw [(remove_spec hr).1, AList.lookup_erase], range, ?_⟩
      simpa [Request.forceFree] using hf
    · exact .inl ((lookup_remove_ne hr hne).trans hl)
  | @give _ _ rm _ _ _ hc =>
    have hne : id ≠ rm.ident := by
      rintro rfl
      rcases hc with ⟨-, hl'⟩ | ⟨_, hl', hs, -⟩
      · simp [hl] at hl'
      · rw [hl] at hl'; cases hl'; simp [ht] at hs
    refine .inl ?_
    rw [add_data, AList.lookup_insert_ne hne]
    rcases hc with ⟨rfl, -⟩ | ⟨_, hl', -, hr⟩
    · exact hl
    · exact (lookup_remove_ne hr hne).trans hl

end

/-- A `TAKEN` range is frozen. A request without `Force` leaves it as it is unless it drops it;
and along a run of such requests in which the node keeps holding it, its data and state stay
those it had, so `Dump` returns the same pairs throughout. -/
theorem taken_range_frozen {id : RangeIdent} {rd : RangeData} (ht : rd.state = .taken) :
    (∀ (n n' : Node) (req : Request), n.Step req n' → req.forceFree = true → n.data.lookup id = some rd →
      n'.data.lookup id = some rd ∨ n'.data.lookup id = none ∧ ∃ range, req = .drop range false) ∧
    ∀ n n' : Node, Relation.ReflTransGen (HeldStep id) n n' → n.data.lookup id = some rd →
      n'.data.lookup id = some rd ∧ ∀ pbi, parseIdent pbi = .ok id →
        n'.dump (some pbi) = .ok (rd.data.entries.map fun p => (p.1, p.2)) := by
  refine ⟨fun n n' req ⟨_, _, hh⟩ hf hl => taken_step (handle_effect hh) hf hl ht, ?_⟩
  intro n n' hrun hl
  have hl' : n'.data.lookup id = some rd := by
    induction hrun with
    | refl => exact hl
    | tail _ hs ih =>
      obtain ⟨req, hf, ⟨_, _, hh⟩, hm⟩ := hs
      exact (taken_step (handle_effect hh) hf ih ht).resolve_right
        fun h => absurd h.1 (AList.lookup_eq_none.not.2 (not_not.2 hm))
  exact ⟨hl', fun _ hp => dump_of_lookup hp hl' ht⟩

/-- `takenNode` after `[5] ↦ [9]` is put to range 1. -/
def heldNode : Node := takenNode.setRangeData (keyIdent 1) ⟨AList.insert [5] [9] ∅, .ready⟩

/-- From `takenNode`, a `Put` to range 1 and a `Put` to the taken range 0, which is refused:
range 0 still dumps the pair it was taken with. -/
theorem taken_range_frozen_dump :
    Relation.ReflTransGen (HeldStep ⟨List.replicate 40 0, rfl⟩) takenNode heldNode ∧
    takenNode.data.lookup ⟨List.replicate 40 0, rfl⟩ = some ⟨AList.insert [1] [7] ∅, .taken⟩ ∧
    heldNode.data.lookup ⟨List.replicate 40 0, rfl⟩ = some ⟨AList.insert [1] [7] ∅, .taken⟩ ∧
    heldNode.dump (some ⟨[], 0⟩) = .ok [([1], [7])] :=
  have hrun : Relation.ReflTransGen (HeldStep ⟨List.replicate 40 0, rfl⟩) takenNode heldNode :=
    .tail (.single ⟨.put [5] (some [9]), rfl, ⟨trivial, _, rfl⟩, by decide⟩)
      ⟨.put [1] (some [0]), rfl, ⟨trivial, _, rfl⟩, by decide⟩
  have hl : takenNode.data.lookup ⟨List.replicate 40 0, rfl⟩ =
      some ⟨AList.insert [1] [7] ∅, .taken⟩ := rfl
  have h := (@taken_range_frozen ⟨List.replicate 40 0, rfl⟩ ⟨AList.insert [1] [7] ∅, .taken⟩
    rfl).2 _ _ hrun hl
  ⟨hrun, hl, h.1, h.2 ⟨[], 0⟩ rfl⟩

/-! ## Idents reported back -/

/-- `parseIdent` is injective on idents whose scope fits and does not end in a zero byte. -/
theorem parseIdent_inj {a b : Pb.Ident} (ha : a.scope.length ≤ 32) (ha' : a.scope.getLast? ≠ some 0)
    (hb : b.scope.length ≤ 32) (hb' : b.scope.getLast? ≠ some 0)
    (h : parseIdent a = parseIdent b) : a = b := by
  obtain ⟨i, hi, di⟩ := decode_parseIdent ha ha'
  obtain ⟨j, hj, dj⟩ := decode_parseIdent hb hb'
  rw [hi, hj] at h
  cases h
  obtain ⟨hs, hk⟩ := Prod.mk.inj (di.symm.trans dj)
  cases a; cases b
  simp only [Pb.Ident.mk.injEq]
  exact ⟨hs, hk⟩

/-- On a node reachable from `New`, after a `Give` that answers for a range whose ident has a scope
that fits and does not end in a zero byte, `Info` reports that range under that ident, with its
bounds and the state `Give` answered. -/
theorem give_info_ident {n n' : Node} (hn : n.Reachable) {req : GiveRequest}
    {fetches : List Fetch} {r : Pb.RangeMeta} {pbid : Pb.Ident} {st : StateRemote}
    (hr : req.range = some r) (hid : r.ident = some pbid) (hl : pbid.scope.length ≤ 32)
    (hz : pbid.scope.getLast? ≠ some 0) (h : n.give req fetches = .ok (.ok st, n')) :
    ∃ infos, n'.info = .ok infos ∧
      ∃ ri ∈ infos, ri.range = ⟨some pbid, r.start, r.end⟩ ∧ ri.state = st := by
  have hinv : NodeInv n' := (NodeInv.reach hn).step
    (@handle_effect n _ (.give req fetches) _ (by simp only [Node.handle, h]; rfl))
  obtain ⟨r', rm, rd, n₁, hr', hp, -, hst, rfl⟩ := n.give_ok_state h
  cases hr.symm.trans hr'
  obtain ⟨i, hi, hd⟩ := decode_parseIdent hl hz
  have hrm : rm = ⟨i, r.start, r.end⟩ := by
    simp only [parseRangeMeta, hid, Option.getD_some, hi, Except.ok.injEq] at hp
    exact hp.symm
  subst hrm
  cases hinfo : (n₁.add ⟨i, r.start, r.end⟩ rd).info with
  | error p =>
    obtain ⟨x, hx, hlx⟩ := Node.rangeInfos_panic hinfo
    have := AList.lookup_isSome.2 (hinv.mem_iff.1 (NodeInv.mem_idents hx))
    rw [Option.isSome_iff_ne_none] at this
    exact absurd hlx this
  | ok infos =>
    refine ⟨infos, rfl, _, Node.rangeInfos_mem hinfo ⟨i, r.start, r.end⟩ (by simp) rd (by simp),
      ?_, hst⟩
    rw [hd]

/-- The scope `[0]` fits in 32 bytes, but `Decode` trims its byte as padding: it packs like the
empty scope, and `Info` reports a range given with it under the empty scope. -/
theorem parseIdent_zero_scope :
    (parseIdent ⟨[0], 0⟩).map RangeIdent.decode = .ok ([], 0) ∧
    parseIdent ⟨[0], 0⟩ = parseIdent ⟨[], 0⟩ ∧
    ((Node.new.give ⟨some ⟨some ⟨[0], 0⟩, [], []⟩, []⟩ []).map fun o =>
      o.2.info.map fun is => is.map (·.range.ident)) = .ok (.ok [some ⟨[], 0⟩]) := by
  decide

/-- For an ident whose scope has at most 32 bytes and does not end in a zero byte, `Decode` gives
back what `parseIdent` packed, `parseIdent` is injective on such idents, and on a node reachable
from `New` a range given with such an ident is reported by `Info` under it. -/
theorem ident_round_trip :
    (∀ pbid : Pb.Ident, pbid.scope.length ≤ 32 → pbid.scope.getLast? ≠ some 0 →
      ∃ i, parseIdent pbid = .ok i ∧ i.decode = (pbid.scope, pbid.key)) ∧
    (∀ a b : Pb.Ident, a.scope.length ≤ 32 → a.scope.getLast? ≠ some 0 →
      b.scope.length ≤ 32 → b.scope.getLast? ≠ some 0 → parseIdent a = parseIdent b → a = b) ∧
    (∀ (n n' : Node) (req : GiveRequest) (fetches : List Fetch) (r : Pb.RangeMeta)
      (pbid : Pb.Ident) (st : StateRemote), n.Reachable → req.range = some r →
      r.ident = some pbid → pbid.scope.length ≤ 32 → pbid.scope.getLast? ≠ some 0 →
      n.give req fetches = .ok (.ok st, n') →
      ∃ infos, n'.info = .ok infos ∧
        ∃ ri ∈ infos, ri.range = ⟨some pbid, r.start, r.end⟩ ∧ ri.state = st) :=
  ⟨fun _ => decode_parseIdent, fun _ _ => parseIdent_inj,
    fun _ _ _ _ _ _ _ hn hr hid hl hz h => give_info_ident hn hr hid hl hz h⟩

theorem ident_round_trip_new :
    ([97] : Bytes).length ≤ 32 ∧ ([97] : Bytes).getLast? ≠ some 0 ∧
    (∃ i, parseIdent ⟨[97], 5⟩ = .ok i ∧ i.decode = ([97], 5)) ∧
    (parseIdent ⟨[97], 5⟩ = parseIdent ⟨[97], 7⟩ → (⟨[97], 5⟩ : Pb.Ident) = ⟨[97], 7⟩) ∧
    Node.new.Reachable ∧
    ∃ st n', Node.new.give ⟨some ⟨some ⟨[97], 5⟩, [], []⟩, []⟩ [] = .ok (.ok st, n') ∧
      ∃ infos, n'.info = .ok infos ∧
        ∃ ri ∈ infos, ri.range = ⟨some ⟨[97], 5⟩, [], []⟩ ∧ ri.state = st :=
  ⟨by decide, by decide, ident_round_trip.1 _ (by decide) (by decide),
    ident_round_trip.2.1 _ _ (by decide) (by decide) (by decide) (by decide), .refl,
    _, _, rfl, ident_round_trip.2.2 _ _ ⟨some ⟨some ⟨[97], 5⟩, [], []⟩, []⟩ []
      ⟨some ⟨[97], 5⟩, [], []⟩ ⟨[97], 5⟩ _ .refl rfl rfl (by decide) (by decide) rfl⟩

end Ranger.Kv
