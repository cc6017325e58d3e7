/-
The data plane of the kv node as a key-value map. A `Put` that succeeds changes what `Get`
answers at its key and nowhere else: the value it wrote, or `no such key` after a nil value; and
it changes no answer of `Dump`, which reads only `TAKEN` ranges while `Put` writes only `READY`
ones (`put_get`). Both follow from one lemma per lookup (`findRangeData_setRangeData`,
`getRangeData_setRangeData`): a write through the data map of a held range is seen by a later
lookup of that range and by no other.
-/
import Ranger.Kv.Node

namespace Ranger.Kv

namespace Node

variable {n n' : Node} {ident : RangeIdent} {rd : RangeData}

/-- What `Get` answers from a readable range holding `value` at the key. -/
def getReply : Option Bytes → Except Panic (Except NodeError Bytes)
  | none => .ok (.error (.status .notFound "no such key"))
  | some v => .ok (.ok v)

theorem putValue_lookup (data : KeyMap) (k k' : Key) (value : Option Bytes) :
    (putValue data k value).lookup k' = if k' = k then value else data.lookup k' := by
  rcases eq_or_ne k' k with rfl | h <;> cases value <;>
    simp [putValue, AList.lookup_erase_ne, AList.lookup_insert_ne, *]

/-- A lookup by key after a write through the data map of a held range finds the same range,
with the written data if it is that one. -/
theorem findRangeData_setRangeData (hl : n.data.lookup ident = some rd) (rd' : RangeData)
    (k : Bytes) :
    (n.setRangeData ident rd').findRangeData k = (n.findRangeData k).map
      (Except.map fun p => (p.1, if p.1 = ident then rd' else p.2)) := by
  unfold findRangeData
  split_ifs with hk
  · rfl
  simp only [setRangeData_ranges, setRangeData_data]
  cases n.ranges.find k with
  | none => rfl
  | some ident' =>
    by_cases he : ident' = ident
    · subst he; simp [AList.lookup_insert, hl, Except.map]
    · simp only [AList.lookup_insert_ne he]
      cases n.data.lookup ident' <;> simp [Except.map, he]

/-- A lookup by ident after a write through the data map of a held range finds the same range,
with the written data if it is that one. -/
theorem getRangeData_setRangeData (hl : n.data.lookup ident = some rd) (rd' : RangeData)
    (range : Option Pb.Ident) :
    (n.setRangeData ident rd').getRangeData range = (n.getRangeData range).map
      fun p => (p.1, if p.1 = ident then rd' else p.2) := by
  rcases range with _ | pbi
  · rfl
  simp only [getRangeData, setRangeData_data]
  cases parseIdent pbi with
  | error e => rfl
  | ok ident' =>
    by_cases he : ident' = ident
    · subst he; simp [AList.lookup_insert, hl, Except.map]
    · simp only [AList.lookup_insert_ne he]
      cases n.data.lookup ident' <;> simp [Except.map, he]

/-- A `Put` that succeeds wrote the key in a `READY` range it found. -/
theorem put_unit {k : Bytes} {value : Option Bytes} (h : n.put k value = .ok (.ok (), n')) :
    ∃ ident rd, n.findRangeData k = .ok (.ok (ident, rd)) ∧ rd.state = .ready ∧
      n' = n.setRangeData ident { rd with data := putValue rd.data k value } := by
  unfold put at h
  split at h
  · cases h
  · cases h
  · next ident rd hf =>
    split at h
    · cases h
    · next hs => cases h; exact ⟨ident, rd, hf, by simpa using hs, rfl⟩

/-- A successful `Put(k, value)` changes what `Get` answers at `k` alone, to `value`, and
changes no answer of `Dump`. -/
theorem put_get {k : Bytes} {value : Option Bytes} (h : n.put k value = .ok (.ok (), n')) :
    n'.get = Function.update n.get k (getReply value) ∧ n'.dump = n.dump := by
  obtain ⟨ident, rd, hf, hs, rfl⟩ := put_unit h
  have hl := (findRangeData_ok hf).1
  constructor
  · funext k'
    unfold get
    rw [findRangeData_setRangeData hl]
    by_cases hk : k' = k
    · subst hk
      cases value <;> simp [hf, hs, Except.map, putValue_lookup, getReply]
    · rw [Function.update_noteq hk]
      rcases hf' : n.findRangeData k' with p | e | ⟨ident', rd'⟩
      · rfl
      · rfl
      · by_cases he : ident' = ident
        · subst he
          obtain rfl : rd' = rd := Option.some.inj ((findRangeData_ok hf').1.symm.trans hl)
          simp [Except.map, putValue_lookup, hk]
        · simp [Except.map, he]
  · funext range
    unfold dump
    rw [getRangeData_setRangeData hl]
    rcases hg : n.getRangeData range with e | ⟨ident', rd'⟩
    · rfl
    · by_cases he : ident' = ident
      · subst he
        obtain rfl : rd' = rd := Option.some.inj ((getRangeData_ok hg).1.symm.trans hl)
        simp [Except.map, hs]
      · simp [Except.map, he]

/-- A node holding one `READY` range, with the zero ident, over the whole keyspace. -/
def oneReadyRange : Node :=
  ⟨AList.insert ⟨List.replicate 40 0, rfl⟩ ⟨∅, .ready⟩ ∅, ⟨[⟨⟨List.replicate 40 0, rfl⟩, [], []⟩]⟩⟩

theorem put_get_oneReadyRange :
    oneReadyRange.put [1] (some [7]) = .ok (.ok (), oneReadyRange.setRangeData
      ⟨List.replicate 40 0, rfl⟩ ⟨AList.insert [1] [7] ∅, .ready⟩) ∧
    (oneReadyRange.setRangeData ⟨List.replicate 40 0, rfl⟩ ⟨AList.insert [1] [7] ∅, .ready⟩).get =
      Function.update oneReadyRange.get [1] (getReply (some [7])) ∧
    (oneReadyRange.setRangeData ⟨List.replicate 40 0, rfl⟩ ⟨AList.insert [1] [7] ∅, .ready⟩).dump =
      oneReadyRange.dump :=
  have h : oneReadyRange.put [1] (some [7]) = .ok (.ok (), oneReadyRange.setRangeData
      ⟨List.replicate 40 0, rfl⟩ ⟨AList.insert [1] [7] ∅, .ready⟩) := rfl
  ⟨h, put_get h⟩

end Node

end Ranger.Kv
