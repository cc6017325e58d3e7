/-
What a range carries from node to node. A node answers `Dump` only for a `TAKEN` range, with the
pairs of its data, no key twice (`dump_ok`). A `Give` fetches such answers from the range's
parents, and each `fetchOne` writes the pairs the new range contains, over what the fetches
before it wrote (`insertContained_lookup`, `fetchAll_lookup`). So a `Give` whose fetches all got
a parent's `Dump`, and that answers `FETCHED`, holds at each key in its bounds the value of the
last parent fetched that holds the key, and no key outside them (`give_fetched_data`): a moved
range keeps its data, and the children of a split or the range a join makes hold their parents'
pairs in their bounds.
-/
import Ranger.Kv.Node

namespace Ranger.Kv

/-! ## What `Dump` answers -/

theorem pairs_nodup (m : KeyMap) : ((m.entries.map fun p => (p.1, p.2)).map (·.1)).Nodup := by
  rw [List.map_map]; exact m.nodupKeys

namespace Node

variable {n : Node}

/-- `Dump` answers with the pairs of a `TAKEN` range the node holds. -/
theorem dump_ok {range : Option Pb.Ident} {pairs : List (Bytes × Bytes)}
    (h : n.dump range = .ok pairs) :
    ∃ ident rd, n.getRangeData range = .ok (ident, rd) ∧ rd.state = .taken ∧
      pairs = rd.data.entries.map fun p => (p.1, p.2) := by
  unfold dump at h
  split at h
  · cases h
  next ident rd hg =>
  split_ifs at h with ht
  cases h
  exact ⟨ident, rd, hg, by simpa using ht, rfl⟩

end Node

/-! ## What the fetches write -/

/-- The pair loop of `fetchOne` writes the value of each pair the range contains, over the map;
the pairs hold each key once. -/
theorem insertContained_lookup (dest : RangeMeta) (k : Key) :
    ∀ (data : KeyMap) (ps : List (Bytes × Bytes)), (ps.map (·.1)).Nodup →
      (insertContained dest data ps).lookup k =
        if dest.contains k then (ps.lookup k).or (data.lookup k) else data.lookup k
  | data, [], _ => by split_ifs <;> rfl
  | data, (k', v) :: ps, hnd => by
    obtain ⟨hk', hnd⟩ := List.nodup_cons.1 hnd
    rw [insertContained, insertContained_lookup dest k _ ps hnd]
    by_cases h : k = k'
    · subst h
      have hn : ps.lookup k = none := List.lookup_eq_none_iff.2 fun p hp =>
        bne_iff_ne.2 fun he => hk' (List.mem_map.2 ⟨p, hp, he.symm⟩)
      split_ifs <;> simp [hn, *]
    · split_ifs <;> simp [List.lookup_cons, AList.lookup_insert_ne h, beq_false_of_ne h]

/-- The value at `k` in the pairs of the last fetch whose pairs hold `k`. -/
def fetchedValue (fetches : List Fetch) (k : Key) : Option Bytes :=
  fetches.reverse.findSome? fun f => f.dump.toOption.bind (·.lookup k)

@[simp] theorem fetchedValue_nil (k : Key) : fetchedValue [] k = none := rfl

theorem fetchedValue_cons (f : Fetch) (fs : List Fetch) (k : Key) :
    fetchedValue (f :: fs) k = (fetchedValue fs k).or (f.dump.toOption.bind (·.lookup k)) := by
  rw [fetchedValue, List.reverse_cons, List.findSome?_append]
  cases h : f.dump.toOption.bind (·.lookup k) <;> simp [List.findSome?_cons, h, fetchedValue]

/-- When every fetch has a parent and got pairs with each key once, none fails, and the map they
leave holds at each key the range contains the value of the last fetch holding it. -/
theorem fetchAll_lookup (dest : RangeMeta) (k : Key) :
    ∀ (data : KeyMap) (failed : Bool) (fs : List Fetch),
      (∀ f ∈ fs, f.node ≠ "" ∧ ∃ ps, f.dump = .ok ps ∧ (ps.map (·.1)).Nodup) →
      (fetchAll dest data failed fs).2 = failed ∧
        (fetchAll dest data failed fs).1.lookup k =
          if dest.contains k then (fetchedValue fs k).or (data.lookup k) else data.lookup k
  | data, failed, [], _ => ⟨rfl, by split_ifs <;> rfl⟩
  | data, failed, f :: fs, hfs => by
    obtain ⟨hn, ps, hd, hnd⟩ := hfs f (List.mem_cons_self _ _)
    have hf : fetchOne dest data f = .ok (insertContained dest data ps) := by
      simp [fetchOne, hn, hd]
    obtain ⟨h₁, h₂⟩ := fetchAll_lookup dest k _ failed fs fun f' hf' =>
      hfs f' (List.mem_cons_of_mem _ hf')
    simp only [fetchAll, hf]
    refine ⟨h₁, ?_⟩
    rw [h₂, insertContained_lookup dest k data ps hnd, fetchedValue_cons, hd]
    split_ifs <;> simp [Except.toOption, Option.or_assoc]

/-! ## A range given from its parents -/

/-- A `Give` whose fetches each got a parent's `Dump`, and that answers `FETCHED`, holds the
range it parsed with, at each key in its bounds, the value of the last parent fetched that holds
the key, and no key outside them. -/
theorem give_fetched_data {n n' : Node} {req : GiveRequest} {fetches : List Fetch}
    (hf : ∀ f ∈ fetches, f.node ≠ "" ∧ ∃ (a : Node) (pbi : Pb.Ident) (pairs : List (Bytes × Bytes)),
      a.dump (some pbi) = .ok pairs ∧ f.dump = .ok pairs)
    (hg : n.give req fetches = .ok (.ok .fetched, n')) :
    ∃ r rm rd, req.range = some r ∧ parseRangeMeta r = .ok rm ∧ n'.data.lookup rm.ident = some rd ∧
      rd.state = .fetched ∧
      ∀ k, rd.data.lookup k = if rm.contains k then fetchedValue fetches k else none := by
  obtain ⟨r, rm, rd, n₁, hr, hp, hgiven, hst, rfl⟩ := n.give_ok_state hg
  refine ⟨r, rm, rd, hr, hp, by simp, hst, fun k => ?_⟩
  have hfs : ∀ f ∈ fetches, f.node ≠ "" ∧ ∃ ps, f.dump = .ok ps ∧ (ps.map (·.1)).Nodup := by
    intro f hm
    obtain ⟨hn, a, pbi, pairs, ha, hd⟩ := hf f hm
    obtain ⟨_, rd₀, -, -, rfl⟩ := Node.dump_ok ha
    exact ⟨hn, _, hd, pairs_nodup rd₀.data⟩
  obtain ⟨h₁, h₂⟩ := fetchAll_lookup rm k ∅ false fetches hfs
  unfold RangeData.given RangeData.fetchMany at hgiven
  split at hgiven
  · cases hgiven; cases hst
  split at hgiven
  · cases hgiven
  · cases hgiven; cases hst
  · cases hgiven
    simp [h₂, AList.lookup_empty]

/-- A node holding range 1 `TAKEN`, with keys [1] and [5]. -/
def takenParent : Node :=
  Node.new.add ⟨⟨List.replicate 32 0 ++ putLE 8 1, by simp⟩, [], []⟩
    ⟨(AList.insert [5] [8] ∅).insert [1] [7], .taken⟩

/-- Range 2, bounded above by [3], given with range 1 of `takenParent` as its parent: it holds
[1] and not [5]. -/
theorem give_fetched_data_below :
    (∀ f ∈ [(⟨"a", .ok [([1], [7]), ([5], [8])]⟩ : Fetch)], f.node ≠ "" ∧
      ∃ (a : Node) (pbi : Pb.Ident) (pairs : List (Bytes × Bytes)),
        a.dump (some pbi) = .ok pairs ∧ f.dump = .ok pairs) ∧
    Node.new.give ⟨some ⟨some ⟨[], 2⟩, [], [3]⟩, [⟨some ⟨some ⟨[], 1⟩, [], []⟩, "a"⟩]⟩
        [⟨"a", .ok [([1], [7]), ([5], [8])]⟩] =
      .ok (.ok .fetched, Node.new.add ⟨⟨List.replicate 32 0 ++ putLE 8 2, by simp⟩, [], [3]⟩
        ⟨AList.insert [1] [7] ∅, .fetched⟩) ∧
    ∃ r rm rd, (⟨some ⟨some ⟨[], 2⟩, [], [3]⟩, [⟨some ⟨some ⟨[], 1⟩, [], []⟩, "a"⟩]⟩ : GiveRequest).range =
        some r ∧ parseRangeMeta r = .ok rm ∧
      (Node.new.add ⟨⟨List.replicate 32 0 ++ putLE 8 2, by simp⟩, [], [3]⟩
        ⟨AList.insert [1] [7] ∅, .fetched⟩).data.lookup rm.ident = some rd ∧ rd.state = .fetched ∧
      ∀ k, rd.data.lookup k =
        if rm.contains k then fetchedValue [⟨"a", .ok [([1], [7]), ([5], [8])]⟩] k else none :=
  have hf : ∀ f ∈ [(⟨"a", .ok [([1], [7]), ([5], [8])]⟩ : Fetch)], f.node ≠ "" ∧
      ∃ (a : Node) (pbi : Pb.Ident) (pairs : List (Bytes × Bytes)),
        a.dump (some pbi) = .ok pairs ∧ f.dump = .ok pairs := by
    simp only [List.mem_singleton, forall_eq]
    exact ⟨by decide, takenParent, ⟨[], 1⟩, _, rfl, rfl⟩
  have hg : Node.new.give ⟨some ⟨some ⟨[], 2⟩, [], [3]⟩, [⟨some ⟨some ⟨[], 1⟩, [], []⟩, "a"⟩]⟩
        [⟨"a", .ok [([1], [7]), ([5], [8])]⟩] =
      .ok (.ok .fetched, Node.new.add ⟨⟨List.replicate 32 0 ++ putLE 8 2, by simp⟩, [], [3]⟩
        ⟨AList.insert [1] [7] ∅, .fetched⟩) := rfl
  ⟨hf, hg, give_fetched_data hf hg⟩

end Ranger.Kv
