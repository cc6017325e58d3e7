/-
A deployment of kv nodes, each under its address, driven by any interleaving of requests to any of
them (`Cluster.Run`). A `Give`'s fetches are no longer left free: `fetchOne` dials the parent's
address and asks for a `Dump`, so each fetch that got pairs got them from the `Dump` of the node at
the address it dialled, at that moment; a fetch that failed may have failed for any reason. Along
every run no node holds a value that a `Put` of the run did not write under the same key
(`cluster_values_put`): fetching copies values from node to node and never makes one. The step
lemma says where a value held after one request comes from (`handle_holds`).

The handoffs the kv nodes allow, from reachable nodes holding their ranges `READY` to nodes that
do not hold the ranges they are given: a move (`Take`, `Give` from the taken range, `Serve`,
`Drop`) completes, and the destination serves the source's pairs in its bounds
(`move_keeps_data`); a split at a key inside the parent's bounds gives each pair of the parent to
exactly one child (`split_keeps_data`); a join of two ranges that meet gives the joined range the
pairs of both, whichever fetch takes the mutex first (`join_keeps_data`). All three rest on one
statement of what a `Give` whose fetches all succeed holds (`give_fetched`).

A request delivered twice does no harm. Whatever the node answered the first time, a second copy
of the same request does not panic and leaves the node as the first left it (`handle_resend`): a
`Give` answered `READY` or `FETCHED` is refused as already having the range, a `Serve` without
`Force` no longer finds the range `FETCHED`, a `Take` no longer finds it `READY`, a `Drop` no
longer finds it, a `Put` and a forced `Serve` write what the range already holds, and an error, an
`Info`, a `Dump` or a `Get` changed nothing the first time. The one exception is a `Give` answered
`FETCH_FAILED`: a second copy removes the range and fetches it again.
-/
import Ranger.Kv.Lifecycle
import Ranger.Kv.Data
import Ranger.Kv.Move
import Ranger.Kv.Invariant

namespace Ranger.Kv

open Node

/-! ## Where a held value comes from -/

/-- Node `n` holds value `v` under key `k`, in some range. -/
def Node.Holds (n : Node) (k : Key) (v : Bytes) : Prop :=
  ∃ id rd, n.data.lookup id = some rd ∧ rd.data.lookup k = some v

/-- The pair a request writes: that of a `Put` of a value. -/
def Request.written : Request → List (Key × Bytes)
  | .put k (some v) => [(k, v)]
  | _ => []

/-- `(k, v)` is among the pairs that a fetch of a `Give` got. -/
def Request.Fetched : Request → Key → Bytes → Prop
  | .give _ fetches, k, v => ∃ f ∈ fetches, ∃ ps, f.dump = .ok ps ∧ (k, v) ∈ ps
  | _, _, _ => False

theorem insertContained_value (dest : RangeMeta) {k : Key} {v : Bytes} :
    ∀ (data : KeyMap) (ps : List (Bytes × Bytes)),
      (insertContained dest data ps).lookup k = some v → data.lookup k = some v ∨ (k, v) ∈ ps
  | _, [], h => .inl h
  | data, (k', v') :: ps, h => by
    rcases insertContained_value dest _ ps h with h | h
    · split at h
      · by_cases he : k = k'
        · subst he
          rw [AList.lookup_insert] at h
          cases h
          exact .inr (List.mem_cons_self _ _)
        · exact .inl (by rwa [AList.lookup_insert_ne he] at h)
      · exact .inl h
    · exact .inr (List.mem_cons_of_mem _ h)

theorem fetchAll_value (dest : RangeMeta) {k : Key} {v : Bytes} :
    ∀ (data : KeyMap) (failed : Bool) (fs : List Fetch),
      (fetchAll dest data failed fs).1.lookup k = some v →
        data.lookup k = some v ∨ ∃ f ∈ fs, ∃ ps, f.dump = .ok ps ∧ (k, v) ∈ ps
  | _, _, [], h => .inl h
  | data, failed, f :: fs, h => by
    have hfs : ∀ {d : KeyMap} {b : Bool}, (d.lookup k = some v → data.lookup k = some v ∨
        ∃ ps, f.dump = .ok ps ∧ (k, v) ∈ ps) → (fetchAll dest d b fs).1.lookup k = some v →
        data.lookup k = some v ∨ ∃ g ∈ f :: fs, ∃ ps, g.dump = .ok ps ∧ (k, v) ∈ ps :=
      fun hd h => (fetchAll_value dest _ _ fs h).elim
        (fun h => (hd h).imp_right fun hf => ⟨f, List.mem_cons_self _ _, hf⟩)
        fun ⟨g, hg, hgs⟩ => .inr ⟨g, List.mem_cons_of_mem _ hg, hgs⟩
    unfold fetchAll at h
    split at h
    · next data' hf =>
      refine hfs (fun h' => ?_) h
      unfold fetchOne at hf
      split at hf
      · cases hf; exact .inl h'
      · split at hf
        · cases hf
        · next ps hd =>
          cases hf
          exact (insertContained_value dest data ps h').imp_right fun hm => ⟨ps, hd, hm⟩
    · exact hfs .inl h

/-- Every value of the range data `Give` builds was among the pairs a fetch got. -/
theorem given_value {rm : RangeMeta} {parents : List Pb.Placement} {fetches : List Fetch}
    {rd : RangeData} (h : RangeData.given rm parents fetches = .ok rd) {k : Key} {v : Bytes}
    (hv : rd.data.lookup k = some v) : ∃ f ∈ fetches, ∃ ps, f.dump = .ok ps ∧ (k, v) ∈ ps := by
  unfold RangeData.given RangeData.fetchMany at h
  split at h
  · cases h; simp [AList.lookup_empty] at hv
  split at h
  · cases h
  · cases h; simp [AList.lookup_empty] at hv
  · cases h
    exact (fetchAll_value rm _ _ _ hv).resolve_left (by simp [AList.lookup_empty])

/-- A pair `Dump` answers is a pair of the range's data. -/
theorem lookup_of_mem_pairs {m : KeyMap} {k : Key} {v : Bytes}
    (h : (k, v) ∈ m.entries.map fun p => (p.1, p.2)) : m.lookup k = some v := by
  obtain ⟨⟨k', v'⟩, hp, he⟩ := List.mem_map.1 h
  cases he
  exact AList.mem_lookup_iff.2 hp

namespace Node

variable {n n' : Node} {k : Key} {v : Bytes}

theorem Holds.of_insert {ident : RangeIdent} {rd : RangeData} (h : n'.Holds k v)
    (hd : n'.data = n.data.insert ident rd) : n.Holds k v ∨ rd.data.lookup k = some v := by
  obtain ⟨id, rd₁, hl, hv⟩ := h
  rw [hd] at hl
  by_cases he : id = ident
  · subst he
    rw [AList.lookup_insert] at hl
    cases hl
    exact .inr hv
  · exact .inl ⟨id, rd₁, by rwa [AList.lookup_insert_ne he] at hl, hv⟩

theorem Holds.of_remove {ident : RangeIdent} (hr : n.remove ident = some n') (h : n'.Holds k v) :
    n.Holds k v := by
  obtain ⟨id, rd, hl, hv⟩ := h
  rw [(remove_spec hr).1] at hl
  by_cases he : id = ident
  · subst he; simp [AList.lookup_erase] at hl
  · exact ⟨id, rd, by rwa [AList.lookup_erase_ne he] at hl, hv⟩

/-- A value some range of the node holds. -/
theorem Holds.of_lookup {ident : RangeIdent} {rd : RangeData} (hl : n.data.lookup ident = some rd)
    (hv : rd.data.lookup k = some v) : n.Holds k v :=
  ⟨ident, rd, hl, hv⟩

end Node

/-- A value a node holds after a request it handled it held before, under the same key, or the
request is a `Put` of it, or a `Give` one of whose fetches got it. -/
theorem handle_holds {n n' : Node} {req : Request} {r : Except NodeError Response}
    (h : n.handle req = .ok (r, n')) {k : Key} {v : Bytes} (hv : n'.Holds k v) :
    n.Holds k v ∨ (k, v) ∈ req.written ∨ req.Fetched k v := by
  cases handle_handled h with
  | same => exact .inl hv
  | serve hg _ | take hg _ =>
    exact .inl ((hv.of_insert rfl).elim id fun hv => ⟨_, _, (getRangeData_ok hg).1, hv⟩)
  | drop _ _ _ hr => exact .inl (hv.of_remove hr)
  | @put k' value _ rd hf _ =>
    rcases hv.of_insert rfl with hn | hw
    · exact .inl hn
    rw [putValue_lookup] at hw
    split_ifs at hw with he
    · subst hw he
      exact .inr (.inl (List.mem_singleton_self _))
    · exact .inl (Holds.of_lookup (findRangeData_ok hf).1 hw)
  | give hg hc =>
    rcases hv.of_insert rfl with hv | hv
    · rcases hc with ⟨rfl, -⟩ | ⟨-, -, -, hr⟩
      · exact .inl hv
      · exact .inl (hv.of_remove hr)
    · exact .inr (.inr (given_value hg hv))

/-! ## A deployment of nodes -/

/-- The nodes of a deployment, by address. -/
abbrev Cluster := String → Node

/-- Each fetch of a `Give` that got pairs got them from the `Dump` of the node at the address it
dialled. -/
def Request.FetchedFrom (c : Cluster) : Request → Prop
  | .give _ fetches =>
    ∀ f ∈ fetches, ∀ ps, f.dump = .ok ps → ∃ pbi, (c f.node).dump (some pbi) = .ok ps
  | _ => True

/-- The runs of a deployment from new nodes, with the pairs their `Put`s wrote: each step is one
request handled by the node at one address. -/
inductive Cluster.Run : Cluster → List (Key × Bytes) → Prop
  | new : Cluster.Run (fun _ => Node.new) []
  | step {c : Cluster} {puts : List (Key × Bytes)} {addr : String} {req : Request} {n' : Node} :
      Cluster.Run c puts → (c addr).Step req n' → req.FetchedFrom c →
      Cluster.Run (Function.update c addr n') (puts ++ req.written)

/-- A value a `Give` fetched was held by the node it was fetched from. -/
theorem Request.FetchedFrom.holds {c : Cluster} {req : Request} (hf : req.FetchedFrom c)
    {k : Key} {v : Bytes} (h : req.Fetched k v) : ∃ addr, (c addr).Holds k v := by
  cases req with
  | give _ fetches =>
    obtain ⟨f, hm, ps, hd, hkv⟩ := h
    obtain ⟨pbi, hpbi⟩ := hf f hm ps hd
    obtain ⟨_, rd, hg, -, rfl⟩ := dump_ok hpbi
    exact ⟨f.node, Holds.of_lookup (getRangeData_ok hg).1 (lookup_of_mem_pairs hkv)⟩
  | _ => exact h.elim

/-- Along every run of a deployment, every value a node holds was written under its key by a
`Put` of the run. -/
theorem cluster_values_put {c : Cluster} {puts : List (Key × Bytes)} (hr : Cluster.Run c puts)
    {k : Key} {v : Bytes} : ∀ addr, (c addr).Holds k v → (k, v) ∈ puts := by
  induction hr with
  | new => rintro _ ⟨_, _, hl, -⟩; simp [Node.new, AList.lookup_empty] at hl
  | @step c puts addr req n' _ hs hf ih =>
    intro a hv
    obtain ⟨-, r, h⟩ := hs
    by_cases ha : a = addr
    · subst ha
      rw [Function.update_same] at hv
      rcases handle_holds h hv with hv | hv | hv
      · exact List.mem_append_left _ (ih a hv)
      · exact List.mem_append_right _ hv
      · obtain ⟨a', hv⟩ := hf.holds hv
        exact List.mem_append_left _ (ih a' hv)
    · rw [Function.update_noteq ha] at hv
      exact List.mem_append_left _ (ih a hv)

/-- Range 0 given to node a, `[1]` put to it, then taken; then given to node b with node a as its
parent, whose `Dump` its fetch got. -/
def movedCluster : Cluster :=
  Function.update (Function.update (Function.update (Function.update (fun _ => Node.new) "a"
    (Node.new.add ⟨⟨List.replicate 40 0, rfl⟩, [], []⟩ ⟨∅, .ready⟩)) "a"
    (Node.new.add ⟨⟨List.replicate 40 0, rfl⟩, [], []⟩ ⟨AList.insert [1] [7] ∅, .ready⟩)) "a"
    (Node.new.add ⟨⟨List.replicate 40 0, rfl⟩, [], []⟩ ⟨AList.insert [1] [7] ∅, .taken⟩)) "b"
    (Node.new.add ⟨⟨List.replicate 40 0, rfl⟩, [], []⟩ ⟨AList.insert [1] [7] ∅, .fetched⟩)

/-- Node b holds `[1] ↦ [7]`, which it fetched from node a, where it was put. -/
theorem cluster_values_put_moved :
    Cluster.Run movedCluster [([1], [7])] ∧ (movedCluster "b").Holds [1] [7] ∧
      ([1], [7]) ∈ [(([1] : Key), ([7] : Bytes))] :=
  have hr : Cluster.Run movedCluster [([1], [7])] :=
    @Cluster.Run.step _ _ "b" (.give ⟨some ⟨none, [], []⟩, [⟨some ⟨none, [], []⟩, "a"⟩]⟩
        [⟨"a", .ok [([1], [7])]⟩]) _
      (@Cluster.Run.step _ _ "a" (.take (some ⟨[], 0⟩)) _
        (@Cluster.Run.step _ _ "a" (.put [1] (some [7])) _
          (@Cluster.Run.step _ _ "a" (.give ⟨some ⟨none, [], []⟩, []⟩ []) _ .new
            ⟨List.Perm.nil, _, rfl⟩ fun _ h => absurd h (List.not_mem_nil _))
          ⟨trivial, _, rfl⟩ trivial)
        ⟨trivial, _, rfl⟩ trivial)
      ⟨List.Perm.refl _, _, rfl⟩
      fun f hf ps hd => by
        rw [List.mem_singleton.1 hf] at hd ⊢
        cases hd
        exact ⟨⟨[], 0⟩, rfl⟩
  have hv : (movedCluster "b").Holds [1] [7] := ⟨⟨List.replicate 40 0, rfl⟩, _, rfl, rfl⟩
  ⟨hr, hv, cluster_values_put hr "b" hv⟩

/-! ## Handing a range over -/

theorem Node.getRangeData_of_lookup {n : Node} {pbi : Pb.Ident} {ident : RangeIdent}
    {rd : RangeData} (hp : parseIdent pbi = .ok ident) (hl : n.data.lookup ident = some rd) :
    n.getRangeData (some pbi) = .ok (ident, rd) := by
  simp [getRangeData, hp, hl]

/-- The pairs `Dump` answers look up as the range's data does. -/
theorem pairs_lookup (k : Key) :
    ∀ l : List (Sigma fun _ : Key => Bytes), (l.map fun p => (p.1, p.2)).lookup k = l.dlookup k
  | [] => rfl
  | ⟨k', v⟩ :: l => by
    by_cases h : k = k'
    · subst h; simp [List.dlookup_cons_eq]
    · simp [List.lookup_cons, beq_false_of_ne h, List.dlookup_cons_ne l ⟨k', v⟩ h, pairs_lookup k l]

/-- A fetch that got the pairs of `data` is read as `data`. -/
theorem fetchedValue_pairs (node : String) (data : KeyMap) (fs : List Fetch) (k : Key) :
    fetchedValue (⟨node, .ok (data.entries.map fun p => (p.1, p.2))⟩ :: fs) k =
      (fetchedValue fs k).or (data.lookup k) := by
  rw [fetchedValue_cons]
  simp only [Except.toOption, Option.some_bind, pairs_lookup]
  rfl

/-- `Give` of a range the node does not hold, with parents whose ranges all parse, and fetches
that each dialled an address and got pairs with each key once: it answers `FETCHED` and adds the
range, holding at each key in its bounds the value of the last fetch holding the key. -/
theorem give_fetched {b : Node} {r : Pb.RangeMeta} {rm : RangeMeta}
    (hr : parseRangeMeta r = .ok rm) (hb : b.data.lookup rm.ident = none)
    {parents : List Pb.Placement} (hne : parents ≠ []) (hpar : parseParents parents = .ok true)
    {fetches : List Fetch}
    (hf : ∀ f ∈ fetches, f.node ≠ "" ∧ ∃ ps, f.dump = .ok ps ∧ (ps.map (·.1)).Nodup) :
    ∃ d, b.give ⟨some r, parents⟩ fetches = .ok (.ok .fetched, b.add rm ⟨d, .fetched⟩) ∧
      ∀ k, d.lookup k = if rm.contains k then fetchedValue fetches k else none := by
  refine ⟨(fetchAll rm ∅ false fetches).1, ?_, fun k => ?_⟩
  · have hflag := (fetchAll_lookup rm [] ∅ false fetches hf).1
    simp [give, hr, clearFetchFailed, hb, RangeData.given, hne, RangeData.fetchMany, hpar, hflag]
  · rw [(fetchAll_lookup rm k ∅ false fetches hf).2]
    split_ifs <;> simp [AList.lookup_empty]

/-- A fetch that dialled an address and got the pairs of a range's data. -/
theorem pairFetch_ok {node : String} (hn : node ≠ "") (data : KeyMap) :
    ∀ f ∈ [(⟨node, .ok (data.entries.map fun p => (p.1, p.2))⟩ : Fetch)],
      f.node ≠ "" ∧ ∃ ps, f.dump = .ok ps ∧ (ps.map (·.1)).Nodup := by
  simp only [List.mem_singleton, forall_eq]
  exact ⟨hn, _, rfl, pairs_nodup data⟩

/-- The pairs `[1] ↦ [7]` and `[5] ↦ [8]`. -/
def twoPairs : KeyMap := (AList.insert [1] [7] ∅).insert [5] [8]

/-- Range 0, unbounded, given to a new node, with the pairs of `twoPairs` put to it. -/
def readySource : Node := Node.new.add ⟨⟨List.replicate 40 0, rfl⟩, [], []⟩ ⟨twoPairs, .ready⟩

theorem readySource_reachable : readySource.Reachable :=
  .tail (.tail (.single ⟨.give ⟨some ⟨none, [], []⟩, []⟩ [], .nil, _, rfl⟩)
    ⟨.put [1] (some [7]), trivial, _, rfl⟩) ⟨.put [5] (some [8]), trivial, _, rfl⟩

/-- `Take` of a `READY` range succeeds, and the range then dumps its pairs. -/
theorem take_ready_dump {n : Node} {pbi : Pb.Ident} {id : RangeIdent} {rd : RangeData}
    (hp : parseIdent pbi = .ok id) (hl : n.data.lookup id = some rd) (hs : rd.state = .ready) :
    n.take (some pbi) = (.ok (), n.setRangeData id { rd with state := .taken }) ∧
      (n.setRangeData id { rd with state := .taken }).dump (some pbi) =
        .ok (rd.data.entries.map fun p => (p.1, p.2)) :=
  have hl₁ : (n.setRangeData id { rd with state := .taken }).data.lookup id =
      some { rd with state := .taken } := by simp [AList.lookup_insert]
  ⟨by simp [take, moveState, getRangeData_of_lookup hp hl, hs], by rw [dump_of_lookup hp hl₁ rfl]⟩

/-- A move of a range from node `a` to node `b`: `Take` on `a`; `Give` on `b` with one parent,
whose range parses and whose fetch got what `a` then dumps; `Serve` on `b`; `Drop` on `a`. If `a`
is reachable and holds the range `READY`, and `b` does not hold the range it is given, every
request succeeds: `a` no longer holds the range, and `b` serves it `READY` with, at each key in
its bounds, the value `a` held. -/
theorem move_keeps_data {a b : Node} (ha : a.Reachable) {pbi pbi' : Pb.Ident} {id : RangeIdent}
    {rd : RangeData} (hp : parseIdent pbi = .ok id) (hl : a.data.lookup id = some rd)
    (hs : rd.state = .ready) {r : Pb.RangeMeta} {rm : RangeMeta} (hr : parseRangeMeta r = .ok rm)
    (hp' : parseIdent pbi' = .ok rm.ident) (hb : b.data.lookup rm.ident = none)
    {parent : Pb.Placement} (hpar : parseParents [parent] = .ok true) (hn : parent.node ≠ "") :
    ∃ a₁ pairs b₁ b₂ a₂,
      a.take (some pbi) = (.ok (), a₁) ∧ a₁.dump (some pbi) = .ok pairs ∧
      b.give ⟨some r, [parent]⟩ [⟨parent.node, .ok pairs⟩] = .ok (.ok .fetched, b₁) ∧
      b₁.serve (some pbi') false = (.ok (), b₂) ∧ a₁.drop (some pbi) false = .ok (.ok (), a₂) ∧
      a₂.stateOf id = none ∧ ∃ rd', b₂.data.lookup rm.ident = some rd' ∧ rd'.state = .ready ∧
        ∀ k, rd'.data.lookup k = if rm.contains k then rd.data.lookup k else none := by
  obtain ⟨htake, hdump⟩ := take_ready_dump hp hl hs
  obtain ⟨d, hgive, hd⟩ := give_fetched hr hb (List.cons_ne_nil _ _) hpar (pairFetch_ok hn rd.data)
  -- `Drop` finds the range `TAKEN`, and the invariant has it in the range slice
  have hl₁ : (a.setRangeData id { rd with state := .taken }).data.lookup id =
      some { rd with state := .taken } := by simp [AList.lookup_insert]
  have hmem : id ∈ (a.setRangeData id { rd with state := .taken }).ranges.idents :=
    (NodeInv.reach ha).mem_iff.2 (AList.lookup_isSome.1 (by simp [hl]))
  obtain ⟨a₂, hrem⟩ := remove_of_mem hmem
  have hb₁ : (b.add rm ⟨d, .fetched⟩).data.lookup rm.ident = some ⟨d, .fetched⟩ := by
    simp [AList.lookup_insert]
  refine ⟨_, _, _, (b.add rm ⟨d, .fetched⟩).setRangeData rm.ident ⟨d, .ready⟩, a₂, htake, hdump,
    hgive, ?_, ?_, ?_, ⟨d, .ready⟩, by simp [AList.lookup_insert], rfl, fun k => ?_⟩
  · simp [serve, moveState, getRangeData_of_lookup hp' hb₁]
  · simp [drop, getRangeData_of_lookup hp hl₁, hrem]
  · rw [stateOf_remove hrem, if_pos rfl]
  · simp [hd, fetchedValue_pairs]

/-- Range 0 of `readySource` moved to a new node as range 1: the new node serves both keys. -/
theorem move_keeps_data_one :
    ∃ a₁ pairs b₁ b₂ a₂,
      readySource.take (some ⟨[], 0⟩) = (.ok (), a₁) ∧ a₁.dump (some ⟨[], 0⟩) = .ok pairs ∧
      Node.new.give ⟨some ⟨some ⟨[], 1⟩, [], []⟩, [⟨some ⟨none, [], []⟩, "a"⟩]⟩
        [⟨"a", .ok pairs⟩] = .ok (.ok .fetched, b₁) ∧
      b₁.serve (some ⟨[], 1⟩) false = (.ok (), b₂) ∧
      a₁.drop (some ⟨[], 0⟩) false = .ok (.ok (), a₂) ∧ a₂.stateOf ⟨List.replicate 40 0, rfl⟩ = none ∧
      ∃ rd', b₂.data.lookup (keyIdent 1) = some rd' ∧
        rd'.state = .ready ∧ ∀ k, rd'.data.lookup k =
          if containsKey [] [] k then twoPairs.lookup k else none := by
  apply @move_keeps_data _ _ readySource_reachable _ _ _ ⟨twoPairs, .ready⟩ _ _ _ _
    ⟨keyIdent 1, [], []⟩
  all_goals first | rfl | decide

/-- A split of a range that node `a` holds, at a key `m` other than `ZeroKey` inside its bounds:
`Take` on `a`, then `Give` of the left child, from the parent's start to `m`, to node `b`, and of
the right child, from `m` to the parent's end, to node `b'`, each with one parent whose range
parses and whose fetch got what `a` then dumps. If `a` is reachable and holds the parent `READY`,
and neither node holds its child, every request succeeds, and each pair of the parent is held by
exactly one child, which hold no other pair. -/
theorem split_keeps_data {a b b' : Node} (ha : a.Reachable) {pbi : Pb.Ident} {rmP : RangeMeta}
    {rd : RangeData} (hp : parseIdent pbi = .ok rmP.ident) (hm : rmP ∈ a.ranges.ranges)
    (hl : a.data.lookup rmP.ident = some rd) (hs : rd.state = .ready) (m : Key) (hmz : m ≠ ZeroKey)
    (hin : rmP.contains m = true) {rL rR : Pb.RangeMeta} {rmL rmR : RangeMeta}
    (hL : parseRangeMeta rL = .ok rmL) (hR : parseRangeMeta rR = .ok rmR)
    (hbL : rmL.start = rmP.start ∧ rmL.end = m) (hbR : rmR.start = m ∧ rmR.end = rmP.end)
    (hb : b.data.lookup rmL.ident = none) (hb' : b'.data.lookup rmR.ident = none)
    {parent : Pb.Placement} (hpar : parseParents [parent] = .ok true) (hn : parent.node ≠ "") :
    ∃ a₁ pairs bL bR, a.take (some pbi) = (.ok (), a₁) ∧ a₁.dump (some pbi) = .ok pairs ∧
      b.give ⟨some rL, [parent]⟩ [⟨parent.node, .ok pairs⟩] = .ok (.ok .fetched, bL) ∧
      b'.give ⟨some rR, [parent]⟩ [⟨parent.node, .ok pairs⟩] = .ok (.ok .fetched, bR) ∧
      ∃ dL dR, bL.data.lookup rmL.ident = some dL ∧ bR.data.lookup rmR.ident = some dR ∧
        ∀ k v, rd.data.lookup k = some v ↔
          Xor' (dL.data.lookup k = some v) (dR.data.lookup k = some v) := by
  obtain ⟨htake, hdump⟩ := take_ready_dump hp hl hs
  obtain ⟨dL, hgL, hdL⟩ := give_fetched hL hb (List.cons_ne_nil _ _) hpar (pairFetch_ok hn rd.data)
  obtain ⟨dR, hgR, hdR⟩ := give_fetched hR hb' (List.cons_ne_nil _ _) hpar (pairFetch_ok hn rd.data)
  refine ⟨_, _, _, _, htake, hdump, hgL, hgR, ⟨dL, .fetched⟩, ⟨dR, .fetched⟩,
    by simp [AList.lookup_insert], by simp [AList.lookup_insert], fun k v => ?_⟩
  simp only [hdL, hdR, fetchedValue_pairs, fetchedValue_nil, Option.none_or, RangeMeta.contains,
    hbL.1, hbL.2, hbR.1, hbR.2]
  have hdis := containsKey_split_disjoint (a := rmP.start) (b := rmP.end) hmz k
  constructor
  · intro hv
    have hk : rmP.contains k = true := (NodeInv.reach ha).bounded _ rd hl rmP hm rfl k
      (AList.lookup_isSome.1 (by simp [hv]))
    rcases (containsKey_split hmz hin k).1 hk with h | h
    · have h' : containsKey m rmP.end k = false := Bool.eq_false_iff.2 fun h' => hdis ⟨h, h'⟩
      exact .inl ⟨by simp [h, hv], by simp [-containsKey_iff, h']⟩
    · have h' : containsKey rmP.start m k = false := Bool.eq_false_iff.2 fun h' => hdis ⟨h', h⟩
      exact .inr ⟨by simp [h, hv], by simp [-containsKey_iff, h']⟩
  · rintro (⟨h, -⟩ | ⟨h, -⟩) <;> split_ifs at h <;> exact h

/-- Range 0 of `readySource` split at `[3]` into ranges 1 and 2 on new nodes: `[1]` goes left
and `[5]` right. -/
theorem split_keeps_data_three :
    ∃ a₁ pairs bL bR, readySource.take (some ⟨[], 0⟩) = (.ok (), a₁) ∧
      a₁.dump (some ⟨[], 0⟩) = .ok pairs ∧
      Node.new.give ⟨some ⟨some ⟨[], 1⟩, [], [3]⟩, [⟨some ⟨none, [], []⟩, "a"⟩]⟩
        [⟨"a", .ok pairs⟩] = .ok (.ok .fetched, bL) ∧
      Node.new.give ⟨some ⟨some ⟨[], 2⟩, [3], []⟩, [⟨some ⟨none, [], []⟩, "a"⟩]⟩
        [⟨"a", .ok pairs⟩] = .ok (.ok .fetched, bR) ∧
      ∃ dL dR, bL.data.lookup (keyIdent 1) = some dL ∧
        bR.data.lookup (keyIdent 2) = some dR ∧
        ∀ k v, twoPairs.lookup k = some v ↔
          Xor' (dL.data.lookup k = some v) (dR.data.lookup k = some v) := by
  apply @split_keeps_data _ _ _ readySource_reachable _ ⟨⟨List.replicate 40 0, rfl⟩, [], []⟩
    ⟨twoPairs, .ready⟩ _ _ _ _ [3] _ _ _ _ ⟨keyIdent 1, [], [3]⟩
    ⟨keyIdent 2, [3], []⟩
  all_goals first | rfl | decide

/-- A join of two ranges that meet at a key `m` other than `ZeroKey`: `Take` of the left range on
node `a` and of the right one on node `a'`, then `Give` to node `b` of the joined range, from the
left's start to the right's end, with two parents whose ranges parse and whose fetches got what
`a` and `a'` then dump, in either order. If both nodes are reachable and hold their range `READY`,
and `b` does not hold the joined range, every request succeeds, and the joined range holds the
pairs of the two ranges and no other pair. -/
theorem join_keeps_data {a a' b : Node} (ha : a.Reachable) (ha' : a'.Reachable)
    {pbiL pbiR : Pb.Ident} {rmL rmR : RangeMeta} {rdL rdR : RangeData}
    (hpL : parseIdent pbiL = .ok rmL.ident) (hmL : rmL ∈ a.ranges.ranges)
    (hlL : a.data.lookup rmL.ident = some rdL) (hsL : rdL.state = .ready)
    (hpR : parseIdent pbiR = .ok rmR.ident) (hmR : rmR ∈ a'.ranges.ranges)
    (hlR : a'.data.lookup rmR.ident = some rdR) (hsR : rdR.state = .ready)
    (m : Key) (hmz : m ≠ ZeroKey) (hm : rmL.end = m ∧ rmR.start = m)
    {r : Pb.RangeMeta} {rm : RangeMeta} (hr : parseRangeMeta r = .ok rm)
    (hbd : rm.start = rmL.start ∧ rm.end = rmR.end) (hin : rm.contains m = true)
    (hb : b.data.lookup rm.ident = none) {pl pr : Pb.Placement}
    (hpar : parseParents [pl, pr] = .ok true) (hnl : pl.node ≠ "") (hnr : pr.node ≠ "") :
    ∃ a₁ a₁' pairsL pairsR, a.take (some pbiL) = (.ok (), a₁) ∧ a₁.dump (some pbiL) = .ok pairsL ∧
      a'.take (some pbiR) = (.ok (), a₁') ∧ a₁'.dump (some pbiR) = .ok pairsR ∧
      ∀ fs ∈ ([[⟨pl.node, .ok pairsL⟩, ⟨pr.node, .ok pairsR⟩],
          [⟨pr.node, .ok pairsR⟩, ⟨pl.node, .ok pairsL⟩]] : List (List Fetch)),
        ∃ b₁ d, b.give ⟨some r, [pl, pr]⟩ fs = .ok (.ok .fetched, b₁) ∧
          b₁.data.lookup rm.ident = some d ∧
          ∀ k v, d.data.lookup k = some v ↔ rdL.data.lookup k = some v ∨ rdR.data.lookup k = some v := by
  obtain ⟨htakeL, hdumpL⟩ := take_ready_dump hpL hlL hsL
  obtain ⟨htakeR, hdumpR⟩ := take_ready_dump hpR hlR hsR
  -- the two ranges' keys lie on either side of `m`, inside the joined range
  have hkL : ∀ k ∈ rdL.data, containsKey rm.start m k = true := fun k hk => by
    have := (NodeInv.reach ha).bounded _ rdL hlL rmL hmL rfl k hk
    rwa [RangeMeta.contains, hm.1, ← hbd.1] at this
  have hkR : ∀ k ∈ rdR.data, containsKey m rm.end k = true := fun k hk => by
    have := (NodeInv.reach ha').bounded _ rdR hlR rmR hmR rfl k hk
    rwa [RangeMeta.contains, hm.2, ← hbd.2] at this
  have hcont : ∀ k v, rdL.data.lookup k = some v ∨ rdR.data.lookup k = some v →
      rm.contains k = true := fun k v h => (containsKey_split hmz hin k).2 <| h.imp
    (fun h => hkL k (AList.lookup_isSome.1 (by simp [h])))
    (fun h => hkR k (AList.lookup_isSome.1 (by simp [h])))
  -- no key is held by both, so the order of the fetches does not matter
  have hdisj : ∀ k, rdL.data.lookup k = none ∨ rdR.data.lookup k = none := fun k => by
    by_contra h
    simp only [not_or, ← ne_eq, Option.ne_none_iff_isSome, AList.lookup_isSome] at h
    exact containsKey_split_disjoint hmz k ⟨hkL k h.1, hkR k h.2⟩
  have hor : ∀ k v, ((rdR.data.lookup k).or (rdL.data.lookup k) = some v ↔
      rdL.data.lookup k = some v ∨ rdR.data.lookup k = some v) ∧
      ((rdL.data.lookup k).or (rdR.data.lookup k) = some v ↔
        rdL.data.lookup k = some v ∨ rdR.data.lookup k = some v) := fun k v => by
    rcases hdisj k with h | h <;> simp [h, Option.or_none]
  refine ⟨_, _, _, _, htakeL, hdumpL, htakeR, hdumpR, fun fs hfs => ?_⟩
  have hf : ∀ f ∈ fs, f.node ≠ "" ∧ ∃ ps, f.dump = .ok ps ∧ (ps.map (·.1)).Nodup := by
    simp only [List.mem_cons, List.mem_singleton, List.not_mem_nil, or_false] at hfs
    rcases hfs with rfl | rfl <;> simp only [List.mem_cons, List.mem_singleton, List.not_mem_nil,
      or_false, forall_eq_or_imp, forall_eq] <;>
      exact ⟨⟨by assumption, _, rfl, pairs_nodup _⟩, by assumption, _, rfl, pairs_nodup _⟩
  obtain ⟨d, hgive, hd⟩ := give_fetched hr hb (List.cons_ne_nil _ _) hpar hf
  refine ⟨_, ⟨d, .fetched⟩, hgive, by simp [AList.lookup_insert], fun k v => ?_⟩
  rw [hd]
  split_ifs with hc
  · simp only [List.mem_cons, List.mem_singleton, List.not_mem_nil, or_false] at hfs
    rcases hfs with rfl | rfl <;> simp only [fetchedValue_pairs, fetchedValue_nil, Option.none_or]
    exacts [(hor k v).1, (hor k v).2]
  · exact ⟨nofun, fun h => absurd (hcont k v h) hc⟩

/-- Range 1, from `ZeroKey` to `[3]`, given to a new node, with `[1]` put to it. -/
def leftSource : Node := Node.new.add ⟨keyIdent 1, [], [3]⟩ ⟨AList.insert [1] [7] ∅, .ready⟩

/-- Range 2, from `[3]` on, given to a new node, with `[5]` put to it. -/
def rightSource : Node := Node.new.add ⟨keyIdent 2, [3], []⟩ ⟨AList.insert [5] [8] ∅, .ready⟩

theorem leftSource_reachable : leftSource.Reachable :=
  .tail (.single ⟨.give ⟨some ⟨some ⟨[], 1⟩, [], [3]⟩, []⟩ [], .nil, _, rfl⟩)
    ⟨.put [1] (some [7]), trivial, _, rfl⟩

theorem rightSource_reachable : rightSource.Reachable :=
  .tail (.single ⟨.give ⟨some ⟨some ⟨[], 2⟩, [3], []⟩, []⟩ [], .nil, _, rfl⟩)
    ⟨.put [5] (some [8]), trivial, _, rfl⟩

/-- Ranges 1 and 2 joined into range 3 on a new node: it holds `[1]` and `[5]`, whichever fetch
came first. -/
theorem join_keeps_data_three :
    ∃ a₁ a₁' pairsL pairsR, leftSource.take (some ⟨[], 1⟩) = (.ok (), a₁) ∧
      a₁.dump (some ⟨[], 1⟩) = .ok pairsL ∧ rightSource.take (some ⟨[], 2⟩) = (.ok (), a₁') ∧
      a₁'.dump (some ⟨[], 2⟩) = .ok pairsR ∧
      ∀ fs ∈ ([[⟨"a", .ok pairsL⟩, ⟨"b", .ok pairsR⟩], [⟨"b", .ok pairsR⟩, ⟨"a", .ok pairsL⟩]] :
          List (List Fetch)),
        ∃ b₁ d, Node.new.give ⟨some ⟨some ⟨[], 3⟩, [], []⟩,
            [⟨some ⟨none, [], []⟩, "a"⟩, ⟨some ⟨none, [], []⟩, "b"⟩]⟩ fs = .ok (.ok .fetched, b₁) ∧
          b₁.data.lookup (keyIdent 3) = some d ∧
          ∀ k v, d.data.lookup k = some v ↔ (AList.insert [1] [7] ∅ : KeyMap).lookup k = some v ∨
            (AList.insert [5] [8] ∅ : KeyMap).lookup k = some v := by
  apply @join_keeps_data _ _ _ leftSource_reachable rightSource_reachable _ _
    ⟨keyIdent 1, [], [3]⟩ ⟨keyIdent 2, [3], []⟩ ⟨AList.insert [1] [7] ∅, .ready⟩
    ⟨AList.insert [5] [8] ∅, .ready⟩ _ _ _ _ _ _ _ _ [3] _ _ _ ⟨keyIdent 3, [], []⟩ _ _ _ _
    ⟨some ⟨none, [], []⟩, "a"⟩ ⟨some ⟨none, [], []⟩, "b"⟩
  all_goals first | rfl | decide

/-! ## Requests delivered twice -/

namespace Node

variable {n n' : Node}

/-- Writing a value twice is writing it once. -/
@[simp] theorem putValue_putValue (data : KeyMap) (k : Key) :
    ∀ value, putValue (putValue data k value) k value = putValue data k value
  | none => AList.ext (List.kerase_of_not_mem_keys fun h => (AList.mem_erase.1 h).1 rfl)
  | some _ => AList.insert_insert _

@[simp] theorem setRangeData_setRangeData (n : Node) (ident : RangeIdent) (rd rd' : RangeData) :
    (n.setRangeData ident rd).setRangeData ident rd' = n.setRangeData ident rd' := by
  simp only [setRangeData, AList.insert_insert]

/-- A `Give` refused with an error left the node as it was. -/
theorem give_error {req : GiveRequest} {fetches : List Fetch} {e : NodeError}
    (h : n.give req fetches = .ok (.error e, n')) : n' = n := by
  unfold give at h
  repeat' split at h
  all_goals first | cases h; rfl | cases h

/-- A `Give` sent again, unless the node answered `FETCH_FAILED`, is refused as already having
the range, and changes nothing. -/
theorem give_resend {req : GiveRequest} {fetches : List Fetch} {r : Except NodeError Response}
    (h : n.handle (.give req fetches) = .ok (r, n')) (hff : r ≠ .ok (.give .fetchFailed)) :
    ∃ r', n'.handle (.give req fetches) = .ok (r', n') := by
  simp only [handle] at h ⊢
  split at h
  · cases h
  next r₀ n₀ hg =>
  obtain ⟨rfl, rfl⟩ := Prod.mk.inj (Except.ok.inj h)
  cases r₀ with
  | error e =>
    obtain rfl := give_error hg
    exact ⟨_, by rw [hg]⟩
  | ok st =>
    obtain ⟨r, rm, rd, n₁, hr, hp, -, rfl, rfl⟩ := n.give_ok_state hg
    have hs : rd.state ≠ .fetchFailed := fun hs => hff (by rw [hs]; rfl)
    exact ⟨.error (.alreadyHave rm.ident),
    by simp [give, hr, hp, clearFetchFailed, hs, Except.map]⟩

/-- Every request a kv node handled, sent again, does not panic and leaves the node as the first
copy left it, unless it was a `Give` answered `FETCH_FAILED`. -/
theorem handle_resend {req : Request} {r : Except NodeError Response}
    (h : n.handle req = .ok (r, n')) (hff : r ≠ .ok (.give .fetchFailed)) :
    ∃ r', n'.handle req = .ok (r', n') := by
  rcases handle_handled h with _ | ⟨hg, -⟩ | ⟨hg, -⟩ | ⟨hg, -, -, hrm⟩ | ⟨hf, hs⟩ | -
  case same => exact ⟨r, h⟩
  case serve force _ _ =>
    cases force <;> simp [handle, serve, moveState, getRangeData_setRangeData (getRangeData_ok hg).1,
      hg, Except.map]
  case take =>
    simp [handle, take, moveState, getRangeData_setRangeData (getRangeData_ok hg).1, hg,
      Except.map]
  case drop =>
    obtain ⟨-, pbi, rfl, hp⟩ := getRangeData_ok hg
    simp [handle, drop, getRangeData, hp, (remove_spec hrm).1, AList.lookup_erase]
  case put =>
    simp [handle, put, findRangeData_setRangeData (findRangeData_ok hf).1, hf, hs,
      Except.map]
  case give => exact give_resend h hff

/-- `readySource` after `[1] ↦ [9]` is put to it. -/
def readySourcePut : Node :=
  readySource.setRangeData ⟨List.replicate 40 0, rfl⟩ ⟨twoPairs.insert [1] [9], .ready⟩

/-- `[1] ↦ [9]` put to `readySource`, then put again: the second copy changes nothing. -/
theorem handle_resend_put :
    readySource.handle (.put [1] (some [9])) = .ok (.ok .empty, readySourcePut) ∧
      (.ok .empty : Except NodeError Response) ≠ .ok (.give .fetchFailed) ∧
      ∃ r', readySourcePut.handle (.put [1] (some [9])) = .ok (r', readySourcePut) :=
  have h : readySource.handle (.put [1] (some [9])) = .ok (.ok .empty, readySourcePut) := rfl
  have hne : (.ok .empty : Except NodeError Response) ≠ .ok (.give .fetchFailed) := nofun
  ⟨h, hne, handle_resend h hne⟩

end Node

end Ranger.Kv
