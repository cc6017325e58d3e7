/-
The kv example node (`examples/kv/pkg/node`): the node's slice of range metadata
and map of range data, and its handlers: `Give`, `Serve`, `Take`, `Drop`, `Info` of the node
server and `Dump`, `Get`, `Put` of the kv server. Every handler runs under `node.mu`, so a run is a
sequence of whole calls, and a call is modelled as a function from the node to what it returns
and the node it leaves: `Except Panic (Except NodeError α × Node)`, where a panic ends the process
and an error is the gRPC error the handler returns.

Go maps are `AList`s (`lookup`, `insert`, `erase` for `m[k]`, `m[k] = v` and `delete`). The
`Dump` responses a `Give` fetches from its parents enter as an input: one `Fetch` per parent, in
the order the `fetchOne` goroutines took the fetch mutex, under which each inserts all its pairs.
Each section ends with the spec lemmas the invariant proofs cite instead of the definitions.

A range ident is packed by `parseIdent` into a `[40]byte`: the scope, zero-padded to 32 bytes,
then the key in little-endian order; `Decode` unpacks one, trimming the padding. Unpacking gives
back what was packed whenever the scope fits and does not itself end in a zero byte
(`decode_parseIdent`), so `Info` reports every range under the ident it was given with.
-/
import Ranger.Key
import Mathlib.Data.List.AList

namespace Ranger.Kv

/-! ## Range idents -/

/-- `binary.LittleEndian.PutUint64` on `w` bytes: the low `w` bytes of `x`, least significant
first. -/
def putLE : Nat → Nat → Bytes
  | 0, _ => []
  | w + 1, x => UInt8.ofNat (x % 256) :: putLE w (x / 256)

/-- `binary.LittleEndian.Uint64`: the number whose bytes, least significant first, these are. -/
def getLE : Bytes → Nat
  | [] => 0
  | b :: bs => b.toNat + 256 * getLE bs

@[simp] theorem putLE_length (w x : Nat) : (putLE w x).length = w := by
  induction w generalizing x <;> simp [putLE, *]

theorem getLE_putLE (w x : Nat) : getLE (putLE w x) = x % 256 ^ w := by
  induction w generalizing x with
  | zero => simp [putLE, getLE, Nat.mod_one]
  | succ w ih =>
    rw [putLE, getLE, ih, UInt8.toNat_ofNat_of_lt (Nat.mod_lt _ (by decide)), Nat.pow_succ',
      Nat.mod_mul]

/-- `rangeIdent`, a `[40]byte`. -/
structure RangeIdent where
  bytes : Bytes
  length_eq : bytes.length = 40
deriving DecidableEq

namespace Pb

/-- `pbr.Ident`. -/
structure Ident where
  scope : Bytes
  key : UInt64
deriving DecidableEq

end Pb

/-- `parseIdent`. -/
def parseIdent (pbid : Pb.Ident) : Except String RangeIdent :=
  if h : pbid.scope.length > 32 then .error "invalid range ident: scope too long"
  else .ok ⟨pbid.scope ++ List.replicate (32 - pbid.scope.length) 0 ++ putLE 8 pbid.key.toNat,
    by simp only [List.length_append, List.length_replicate, putLE_length]; omega⟩

/-- `rangeIdent.Decode`: the first 32 bytes with their trailing zeros trimmed, and the key. -/
def RangeIdent.decode (i : RangeIdent) : Bytes × UInt64 :=
  (((i.bytes.take 32).reverse.dropWhile (· == 0)).reverse, UInt64.ofNat (getLE (i.bytes.drop 32)))

theorem dropWhile_replicate_append (n : Nat) (l : Bytes) :
    (List.replicate n 0 ++ l).dropWhile (· == 0) = l.dropWhile (· == 0) := by
  induction n <;> simp [List.replicate_succ, *]

theorem dropWhile_reverse {s : Bytes} (hz : s.getLast? ≠ some 0) :
    s.reverse.dropWhile (· == 0) = s.reverse := by
  cases h : s.reverse with
  | nil => rfl
  | cons x t =>
    have hx : x ≠ 0 := by rintro rfl; simp [← List.head?_reverse, h] at hz
    simp [hx]

/-- `Decode` gives back the scope and key `parseIdent` was given, for a scope of at most 32 bytes
that does not end in a zero byte. -/
theorem decode_parseIdent {pbid : Pb.Ident} (hl : pbid.scope.length ≤ 32)
    (hz : pbid.scope.getLast? ≠ some 0) :
    ∃ i, parseIdent pbid = .ok i ∧ i.decode = (pbid.scope, pbid.key) := by
  refine ⟨_, dif_neg (by omega), ?_⟩
  have hlen : (pbid.scope ++ List.replicate (32 - pbid.scope.length) 0).length = 32 := by simp; omega
  simp only [RangeIdent.decode, List.take_left' hlen, List.drop_left' hlen, getLE_putLE,
    List.reverse_append, List.reverse_replicate, dropWhile_replicate_append, dropWhile_reverse hz,
    List.reverse_reverse, Prod.mk.injEq, true_and]
  exact UInt64.eq_of_toBitVec_eq (BitVec.eq_of_toNat_eq
    ((UInt64.toNat_ofNat_of_lt (Nat.mod_lt _ (by decide))).trans
      (Nat.mod_eq_of_lt pbid.key.toNat_lt_size)))

example : ∃ i, parseIdent ⟨[97], 5⟩ = .ok i ∧ i.decode = ([97], 5) :=
  decode_parseIdent (by decide) (by decide)

/-- The ident `parseIdent` makes of key `n` in the empty scope. -/
def keyIdent (n : Nat) : RangeIdent := ⟨List.replicate 32 0 ++ putLE 8 n, by simp⟩

/-! ## Range metadata -/

namespace Pb

/-- `pbr.RangeMeta`; a nil `Ident` reads as the zero ident through the proto getters. -/
structure RangeMeta where
  ident : Option Ident
  start : Bytes
  «end» : Bytes
deriving DecidableEq

/-- `pbr.Placement`, one parent of a `GiveRequest`. -/
structure Placement where
  range : Option RangeMeta
  node : String
deriving DecidableEq

end Pb

/-- `RangeMeta`. -/
structure RangeMeta where
  ident : RangeIdent
  start : Key
  «end» : Key
deriving DecidableEq

/-- `parseRangeMeta`. -/
def parseRangeMeta (r : Pb.RangeMeta) : Except String RangeMeta :=
  match parseIdent (r.ident.getD ⟨[], 0⟩) with
  | .error e => .error e
  | .ok ident => .ok ⟨ident, r.start, r.end⟩

/-- `RangeMeta.Contains`. -/
def RangeMeta.contains (rm : RangeMeta) (k : Key) : Bool := containsKey rm.start rm.end k

/-! ## The range slice -/

/-- `Ranges`. -/
structure Ranges where
  ranges : List RangeMeta

/-- `Ranges.Add`. -/
def Ranges.add (rs : Ranges) (r : RangeMeta) : Ranges := ⟨rs.ranges ++ [r]⟩

/-- `Ranges.Remove`: the first range with the ident is overwritten by the last, and the last slot
is cut off. `none` is its panic `"ident not found in range map"`. -/
def Ranges.remove (rs : Ranges) (ident : RangeIdent) : Option Ranges :=
  match rs.ranges.findIdx? (·.ident == ident), rs.ranges.getLast? with
  | some idx, some last => some ⟨(rs.ranges.set idx last).dropLast⟩
  | _, _ => none

/-- `Ranges.Find`: the ident of the first range that contains `k`. -/
def Ranges.find (rs : Ranges) (k : Key) : Option RangeIdent :=
  (rs.ranges.find? (·.contains k)).map (·.ident)

/-- The idents of the slice, in order. -/
def Ranges.idents (rs : Ranges) : List RangeIdent := rs.ranges.map (·.ident)

theorem perm_cons_eraseIdx {α : Type} (l : List α) (i : Nat) (h : i < l.length) :
    l.Perm (l[i] :: l.eraseIdx i) := by
  conv_lhs => rw [← List.take_append_drop i l, ← List.getElem_cons_drop l i h]
  rw [List.eraseIdx_eq_take_drop_succ]
  exact List.perm_middle

/-- Overwriting slot `i` with the last element and cutting the last slot off removes slot `i`,
up to order. -/
theorem set_getLast_dropLast_perm {α : Type} :
    ∀ (l : List α) (i : Nat) (last : α), i < l.length → l.getLast? = some last →
      (l.set i last).dropLast.Perm (l.eraseIdx i)
  | [_], 0, _, _, _ => by simp
  | _ :: y :: t, 0, last, _, hl => by
    rw [List.getLast?_cons_cons, List.getLast?_eq_getLast _ (List.cons_ne_nil y t)] at hl
    cases hl
    rw [List.set_cons_zero, List.dropLast_cons₂, List.eraseIdx_cons_zero]
    conv_rhs => rw [← List.dropLast_concat_getLast (List.cons_ne_nil y t)]
    exact (List.perm_append_singleton _ _).symm
  | x :: y :: t, i + 1, last, hi, hl => by
    rw [List.getLast?_cons_cons] at hl
    have ih := set_getLast_dropLast_perm (y :: t) i last (by simpa using hi) hl
    rw [List.set_cons_succ, List.eraseIdx_cons_succ,
      List.dropLast_cons_of_ne_nil (by simp)]
    exact ih.cons x

theorem Ranges.remove_spec {rs rs' : Ranges} {ident : RangeIdent} (h : rs.remove ident = some rs') :
    ∃ i, ∃ hi : i < rs.ranges.length, rs.ranges[i].ident = ident ∧
      rs'.ranges.Perm (rs.ranges.eraseIdx i) := by
  unfold remove at h
  split at h
  · next idx last hidx hlast =>
    cases h
    obtain ⟨hi, hp, -⟩ := List.findIdx?_eq_some_iff_getElem.1 hidx
    exact ⟨idx, hi, by simpa using hp, set_getLast_dropLast_perm _ _ _ hi hlast⟩
  · cases h

theorem Ranges.remove_isSome {rs : Ranges} {ident : RangeIdent} (h : ident ∈ rs.idents) :
    (rs.remove ident).isSome := by
  obtain ⟨rm, hrm, rfl⟩ := List.mem_map.1 h
  have hne : rs.ranges ≠ [] := List.ne_nil_of_mem hrm
  have hidx : (rs.ranges.findIdx? (·.ident == rm.ident)).isSome := by
    rw [List.findIdx?_isSome]; exact List.any_eq_true.2 ⟨rm, hrm, by simp⟩
  unfold remove
  rw [Option.isSome_iff_exists.1 hidx |>.choose_spec, List.getLast?_eq_getLast _ hne]
  rfl

theorem Ranges.find_spec {rs : Ranges} {k : Key} {ident : RangeIdent} (h : rs.find k = some ident) :
    ∃ rm ∈ rs.ranges, rm.ident = ident ∧ rm.contains k = true := by
  obtain ⟨rm, hf, rfl⟩ := Option.map_eq_some'.1 h
  exact ⟨rm, List.mem_of_find?_eq_some hf, rfl, by simpa using List.find?_some hf⟩

@[simp] theorem Ranges.add_ranges (rs : Ranges) (r : RangeMeta) :
    (rs.add r).ranges = rs.ranges ++ [r] := rfl

/-! ## Range data and the node -/

/-- `ranje.StateRemote`, whose declaration is not under src/: the states the node uses. -/
inductive StateRemote
  | unknown | fetching | fetched | fetchFailed | ready | taken
deriving DecidableEq

/-- `map[string][]byte`, a range's pairs. -/
abbrev KeyMap := AList fun _ : Key => Bytes

/-- `RangeData`. -/
structure RangeData where
  data : KeyMap
  state : StateRemote

/-- `Node`: the fields its handlers read and write. -/
structure Node where
  data : AList fun _ : RangeIdent => RangeData
  ranges : Ranges

/-- The node `New` builds: no data and no ranges. -/
def Node.new : Node := ⟨∅, ⟨[]⟩⟩

/-- The gRPC codes the handlers return. -/
inductive Code
  | invalidArgument | aborted | failedPrecondition | unimplemented | notFound
deriving DecidableEq

/-- The errors the handlers return. -/
inductive NodeError
  /-- `status.Error(code, message)` and `status.Errorf`. -/
  | status (code : Code) (message : String)
  /-- `fmt.Errorf("already have ident: %s", rm.ident)` in `Give`. -/
  | alreadyHave (ident : RangeIdent)
deriving DecidableEq

/-- The panics of the handlers. -/
inductive Panic
  /-- `panic("ident not found in range map")` in `Ranges.Remove`. -/
  | identNotFound
  /-- `panic("range found in map but no data?!")` in `Get` and `Put`. -/
  | noData
  /-- `Info` reading `d.state` of a nil `*RangeData`. -/
  | nilRangeData
  /-- `fetchMany` parsing a parent whose `Range` is nil. -/
  | nilParentRange
deriving DecidableEq

/-- What a handler returns under the lock: a panic, or its reply and the node it leaves. -/
abbrev Outcome (α : Type) := Except Panic (Except NodeError α × Node)

namespace Node

/-- The writes through a `*RangeData` of the map (`rd.state = ...`, `rd.data[k] = ...`). -/
def setRangeData (n : Node) (ident : RangeIdent) (rd : RangeData) : Node :=
  { n with data := n.data.insert ident rd }

/-- `n.node.ranges.Add(rm)` and `n.node.data[rm.ident] = rd`, the end of `Give`. -/
def add (n : Node) (rm : RangeMeta) (rd : RangeData) : Node :=
  ⟨n.data.insert rm.ident rd, n.ranges.add rm⟩

/-- `delete(n.node.data, ident)` then `n.node.ranges.Remove(ident)`, as `Give` and `Drop` do;
`none` is `Remove`'s panic. -/
def remove (n : Node) (ident : RangeIdent) : Option Node :=
  (n.ranges.remove ident).map fun rs => ⟨n.data.erase ident, rs⟩

@[simp] theorem setRangeData_ranges (n : Node) (ident : RangeIdent) (rd : RangeData) :
    (n.setRangeData ident rd).ranges = n.ranges := rfl

@[simp] theorem setRangeData_data (n : Node) (ident : RangeIdent) (rd : RangeData) :
    (n.setRangeData ident rd).data = n.data.insert ident rd := rfl

@[simp] theorem add_ranges (n : Node) (rm : RangeMeta) (rd : RangeData) :
    (n.add rm rd).ranges = n.ranges.add rm := rfl

@[simp] theorem add_data (n : Node) (rm : RangeMeta) (rd : RangeData) :
    (n.add rm rd).data = n.data.insert rm.ident rd := rfl

theorem remove_spec {n n' : Node} {ident : RangeIdent} (h : n.remove ident = some n') :
    n'.data = n.data.erase ident ∧ n.ranges.remove ident = some n'.ranges := by
  obtain ⟨rs, hrs, rfl⟩ := Option.map_eq_some'.1 h
  exact ⟨rfl, hrs⟩

end Node

/-! ## Fetching a range from its parents -/

/-- What one `fetchOne` goroutine got: its parent's address and the parent's `Dump` response,
the pairs or the error. -/
structure Fetch where
  node : String
  dump : Except String (List (Bytes × Bytes))

/-- The pair loop of `fetchOne`: the pairs `dest` contains are written to the map. -/
def insertContained (dest : RangeMeta) (data : KeyMap) : List (Bytes × Bytes) → KeyMap
  | [] => data
  | (k, v) :: ps => insertContained dest (if dest.contains k then data.insert k v else data) ps

/-- `fetchOne`: nothing to fetch from an empty address; else the `Dump` error, or the map with the
pairs `dest` contains. -/
def fetchOne (dest : RangeMeta) (data : KeyMap) (f : Fetch) : Except String KeyMap :=
  if f.node = "" then .ok data
  else match f.dump with
    | .error e => .error e
    | .ok pairs => .ok (insertContained dest data pairs)

/-- The fetch goroutines of `fetchMany`, in the order they took the mutex: the map they leave, and
whether one of them failed (`g.Wait()` returning an error). -/
def fetchAll (dest : RangeMeta) : KeyMap → Bool → List Fetch → KeyMap × Bool
  | data, failed, [] => (data, failed)
  | data, failed, f :: fs => match fetchOne dest data f with
    | .ok data' => fetchAll dest data' failed fs
    | .error _ => fetchAll dest data true fs

/-- The parse loop at the head of `fetchMany`: `false` at the first parent whose range does not
parse, a panic at a nil parent range before that. -/
def parseParents : List Pb.Placement → Except Panic Bool
  | [] => .ok true
  | p :: ps => match p.range with
    | none => .error .nilParentRange
    | some r => match parseRangeMeta r with
      | .error _ => .ok false
      | .ok _ => parseParents ps

/-- `RangeData.fetchMany`. -/
def RangeData.fetchMany (rd : RangeData) (dest : RangeMeta) (parents : List Pb.Placement)
    (fetches : List Fetch) : Except Panic RangeData :=
  match parseParents parents with
  | .error p => .error p
  | .ok false => .ok { rd with state := .fetchFailed }
  | .ok true =>
    let r := fetchAll dest rd.data false fetches
    .ok ⟨r.1, if r.2 then .fetchFailed else .fetched⟩

/-- The range data `Give` builds: a fresh range is `Ready`, one with parents is fetched from them. -/
def RangeData.given (rm : RangeMeta) (parents : List Pb.Placement) (fetches : List Fetch) :
    Except Panic RangeData :=
  if parents.isEmpty then .ok ⟨∅, .ready⟩
  else RangeData.fetchMany ⟨∅, .fetching⟩ rm parents fetches

theorem parseParents_panic : ∀ {parents : List Pb.Placement} {p : Panic},
    parseParents parents = .error p → p = .nilParentRange
  | [], _, h => by cases h
  | q :: qs, _, h => by
    unfold parseParents at h
    split at h
    · cases h; rfl
    · split at h
      · cases h
      · exact parseParents_panic h

theorem insertContained_keys (dest : RangeMeta) :
    ∀ (data : KeyMap) (ps : List (Bytes × Bytes)) k,
      k ∈ insertContained dest data ps → k ∈ data ∨ dest.contains k = true
  | _, [], _, h => .inl h
  | data, (k', v) :: ps, k, h => by
    rcases insertContained_keys dest _ ps k h with h | h
    · split at h
      · rcases (AList.mem_insert _).1 h with rfl | h
        · exact .inr ‹_›
        · exact .inl h
      · exact .inl h
    · exact .inr h

theorem fetchAll_keys (dest : RangeMeta) :
    ∀ (data : KeyMap) (failed : Bool) (fs : List Fetch) k,
      k ∈ (fetchAll dest data failed fs).1 → k ∈ data ∨ dest.contains k = true
  | _, _, [], _, h => .inl h
  | data, failed, f :: fs, k, h => by
    unfold fetchAll at h
    split at h
    · next data' hf =>
      rcases fetchAll_keys dest _ _ fs k h with h | h
      · unfold fetchOne at hf
        split at hf
        · cases hf; exact .inl h
        · split at hf
          · cases hf
          · cases hf; exact insertContained_keys dest _ _ k h
      · exact .inr h
    · exact fetchAll_keys dest _ _ fs k h

theorem given_panic {rm : RangeMeta} {parents : List Pb.Placement} {fetches : List Fetch}
    {p : Panic} (h : RangeData.given rm parents fetches = .error p) : p = .nilParentRange := by
  unfold RangeData.given RangeData.fetchMany at h
  split at h
  · cases h
  · split at h
    · next hp => cases h; exact parseParents_panic hp
    all_goals cases h

/-- Every key of the range data `Give` builds lies in the range. -/
theorem given_keys {rm : RangeMeta} {parents : List Pb.Placement} {fetches : List Fetch}
    {rd : RangeData} (h : RangeData.given rm parents fetches = .ok rd) :
    ∀ k ∈ rd.data, rm.contains k = true := by
  intro k hk
  unfold RangeData.given RangeData.fetchMany at h
  split at h
  · cases h; exact absurd hk (AList.not_mem_empty k)
  · split at h
    · cases h
    · cases h; exact absurd hk (AList.not_mem_empty k)
    · cases h
      exact (fetchAll_keys rm _ _ _ k hk).resolve_left (AList.not_mem_empty k)

/-! ## The handlers -/

/-- `GiveRequest`. -/
structure GiveRequest where
  range : Option Pb.RangeMeta
  parents : List Pb.Placement

/-- `InfoResponse`'s `RangeInfo`. -/
structure RangeInfo where
  range : Pb.RangeMeta
  state : StateRemote
  keys : UInt64

namespace Node

/-- The `missing: range` error of `Give`, `getRangeData` and `Dump`. -/
def missingRange : NodeError := .status .invalidArgument "missing: range"

/-- `nodeServer.getRangeData`, whose checks `Dump` repeats with the same codes and messages. -/
def getRangeData (n : Node) : Option Pb.Ident → Except NodeError (RangeIdent × RangeData)
  | none => .error missingRange
  | some pbi => match parseIdent pbi with
    | .error e => .error (.status .invalidArgument ("error parsing range ident: " ++ e))
    | .ok ident => match n.data.lookup ident with
      | none => .error (.status .invalidArgument "range not found")
      | some rd => .ok (ident, rd)

/-- The special case of `Give` for a range the node already has: one whose fetch failed is
removed (`some`), any other is refused (`none`). -/
def clearFetchFailed (n : Node) (ident : RangeIdent) : Except Panic (Option Node) :=
  match n.data.lookup ident with
  | none => .ok (some n)
  | some rd =>
    if rd.state = .fetchFailed then
      match n.remove ident with
      | none => .error .identNotFound
      | some n' => .ok (some n')
    else .ok none

/-- `nodeServer.Give`. -/
def give (n : Node) (req : GiveRequest) (fetches : List Fetch) : Outcome StateRemote :=
  match req.range with
  | none => .ok (.error missingRange, n)
  | some r =>
    match parseRangeMeta r with
    | .error e => .ok (.error (.status .invalidArgument e), n)
    | .ok rm =>
      match n.clearFetchFailed rm.ident with
      | .error p => .error p
      | .ok none => .ok (.error (.alreadyHave rm.ident), n)
      | .ok (some n') =>
        match RangeData.given rm req.parents fetches with
        | .error p => .error p
        | .ok rd => .ok (.ok rd.state, n'.add rm rd)

/-- The shape `Serve` and `Take` share: look the range up, refuse with `code` and `message` unless
its state is `allowed`, then move it to `target`. -/
def moveState (n : Node) (range : Option Pb.Ident) (allowed : StateRemote → Bool) (code : Code)
    (message : String) (target : StateRemote) : Except NodeError Unit × Node :=
  match n.getRangeData range with
  | .error e => (.error e, n)
  | .ok (ident, rd) =>
    if allowed rd.state then (.ok (), n.setRangeData ident { rd with state := target })
    else (.error (.status code message), n)

/-- `nodeServer.Serve`. -/
def serve (n : Node) (range : Option Pb.Ident) (force : Bool) : Except NodeError Unit × Node :=
  n.moveState range (fun s => s == .fetched || force) .aborted
    "won't serve ranges not in the FETCHED state without FORCE" .ready

/-- `nodeServer.Take`. -/
def take (n : Node) (range : Option Pb.Ident) : Except NodeError Unit × Node :=
  n.moveState range (· == .ready) .failedPrecondition
    "can only take ranges in the READY state" .taken

/-- `nodeServer.Drop`. -/
def drop (n : Node) (range : Option Pb.Ident) (force : Bool) : Outcome Unit :=
  match n.getRangeData range with
  | .error e => .ok (.error e, n)
  | .ok (ident, rd) =>
    if rd.state = .fetching then
      .ok (.error (.status .unimplemented
        "dropping ranges in the FETCHING state is not supported yet"), n)
    else if rd.state != .taken && !force then
      .ok (.error (.status .aborted "won't drop ranges not in the TAKEN state without FORCE"), n)
    else match n.remove ident with
      | none => .error .identNotFound
      | some n' => .ok (.ok (), n')

/-- The loop of `nodeServer.Info` over the range slice. -/
def rangeInfos (n : Node) : List RangeMeta → Except Panic (List RangeInfo)
  | [] => .ok []
  | r :: rs => match n.data.lookup r.ident with
    | none => .error .nilRangeData
    | some d => (n.rangeInfos rs).map fun is =>
      ⟨⟨some ⟨r.ident.decode.1, r.ident.decode.2⟩, r.start, r.end⟩, d.state,
        UInt64.ofNat d.data.entries.length⟩ :: is

/-- `nodeServer.Info`. -/
def info (n : Node) : Except Panic (List RangeInfo) := n.rangeInfos n.ranges.ranges

/-- `kvServer.Dump`. -/
def dump (n : Node) (range : Option Pb.Ident) : Except NodeError (List (Bytes × Bytes)) :=
  match n.getRangeData range with
  | .error e => .error e
  | .ok (_, rd) =>
    if rd.state != .taken then
      .error (.status .failedPrecondition "can only dump ranges in the TAKEN state")
    else .ok (rd.data.entries.map fun p => (p.1, p.2))

/-- The head `Get` and `Put` share: the key's range by `Ranges.Find`, and its data. -/
def findRangeData (n : Node) (k : Bytes) :
    Except Panic (Except NodeError (RangeIdent × RangeData)) :=
  if k = [] then .ok (.error (.status .invalidArgument "missing: key"))
  else match n.ranges.find k with
    | none => .ok (.error (.status .failedPrecondition "no valid range"))
    | some ident => match n.data.lookup ident with
      | none => .error .noData
      | some rd => .ok (.ok (ident, rd))

/-- `kvServer.Get`. -/
def get (n : Node) (k : Bytes) : Except Panic (Except NodeError Bytes) :=
  match n.findRangeData k with
  | .error p => .error p
  | .ok (.error e) => .ok (.error e)
  | .ok (.ok (_, rd)) =>
    if rd.state != .ready && rd.state != .fetched && rd.state != .taken then
      .ok (.error (.status .failedPrecondition
        "can only GET from ranges in the READY, FETCHED, and TAKEN states"))
    else match rd.data.lookup k with
      | none => .ok (.error (.status .notFound "no such key"))
      | some v => .ok (.ok v)

/-- The write of `Put`: `delete(rd.data, k)` for a nil value, else `rd.data[k] = req.Value`. -/
def putValue (data : KeyMap) (k : Key) : Option Bytes → KeyMap
  | none => data.erase k
  | some v => data.insert k v

/-- `kvServer.Put`. -/
def put (n : Node) (k : Bytes) (value : Option Bytes) : Outcome Unit :=
  match n.findRangeData k with
  | .error p => .error p
  | .ok (.error e) => .ok (.error e, n)
  | .ok (.ok (ident, rd)) =>
    if rd.state != .ready then
      .ok (.error (.status .failedPrecondition "can only PUT to ranges in the READY state"), n)
    else .ok (.ok (), n.setRangeData ident { rd with data := putValue rd.data k value })

end Node

/-! ## What each handler does -/

namespace Node

variable {n n' n₁ : Node} {ident : RangeIdent} {rd : RangeData} {p : Panic}

theorem Ranges.remove_idents {rs rs' : Ranges} (h : rs.remove ident = some rs') :
    rs.idents.Perm (ident :: rs'.idents) := by
  obtain ⟨i, hi, rfl, hp⟩ := Ranges.remove_spec h
  have := (perm_cons_eraseIdx rs.ranges i hi).map RangeMeta.ident
  exact this.trans ((hp.map RangeMeta.ident).symm.cons _)

theorem Ranges.remove_subset {rs rs' : Ranges} (h : rs.remove ident = some rs') :
    rs'.ranges ⊆ rs.ranges := by
  obtain ⟨i, -, -, hp⟩ := Ranges.remove_spec h
  exact fun _ hm => List.mem_of_mem_eraseIdx (hp.subset hm)

theorem remove_of_mem (h : ident ∈ n.ranges.idents) : ∃ n', n.remove ident = some n' := by
  obtain ⟨rs, hrs⟩ := Option.isSome_iff_exists.1 (Ranges.remove_isSome h)
  exact ⟨_, by rw [remove, hrs]; rfl⟩

theorem getRangeData_ok {range : Option Pb.Ident} (h : n.getRangeData range = .ok (ident, rd)) :
    n.data.lookup ident = some rd ∧ ∃ pbi, range = some pbi ∧ parseIdent pbi = .ok ident := by
  rcases range with _ | pbi
  · cases h
  · cases hp : parseIdent pbi with
    | error e => simp [getRangeData, hp] at h
    | ok ident' =>
      cases hl : n.data.lookup ident' with
      | none => simp [getRangeData, hp, hl] at h
      | some rd' =>
        simp only [getRangeData, hp, hl, Except.ok.injEq, Prod.mk.injEq] at h
        obtain ⟨rfl, rfl⟩ := h
        exact ⟨hl, pbi, rfl, hp⟩

theorem moveState_node (range : Option Pb.Ident) (allowed : StateRemote → Bool) (code : Code)
    (message : String) (target : StateRemote) :
    (n.moveState range allowed code message target).2 = n ∨
      ∃ ident rd, n.getRangeData range = .ok (ident, rd) ∧ allowed rd.state = true ∧
        (n.moveState range allowed code message target).2 =
          n.setRangeData ident { rd with state := target } := by
  unfold moveState
  split
  · exact .inl rfl
  · next ident rd hg =>
    split
    · exact .inr ⟨ident, rd, hg, ‹_›, rfl⟩
    · exact .inl rfl

theorem clearFetchFailed_ok (h : n.clearFetchFailed ident = .ok (some n₁)) :
    (n₁ = n ∧ n.data.lookup ident = none) ∨
      ∃ rd, n.data.lookup ident = some rd ∧ rd.state = .fetchFailed ∧ n.remove ident = some n₁ := by
  unfold clearFetchFailed at h
  split at h
  · cases h; exact .inl ⟨rfl, ‹_›⟩
  · next rd hl =>
    split at h
    · split at h
      · cases h
      · next hr => cases h; exact .inr ⟨rd, hl, ‹_›, hr⟩
    · cases h

theorem clearFetchFailed_panic (h : n.clearFetchFailed ident = .error p) :
    ident ∈ n.data ∧ n.remove ident = none := by
  unfold clearFetchFailed at h
  split at h
  · cases h
  · next rd hl =>
    split at h
    · split at h
      · exact ⟨AList.lookup_isSome.1 (by simp [hl]), ‹_›⟩
      · cases h
    · cases h

theorem give_ok {req : GiveRequest} {fetches : List Fetch} {r : Except NodeError StateRemote}
    (h : n.give req fetches = .ok (r, n')) :
    n' = n ∨ ∃ rm rd n₁, RangeData.given rm req.parents fetches = .ok rd ∧ n' = n₁.add rm rd ∧
      ((n₁ = n ∧ n.data.lookup rm.ident = none) ∨ ∃ rd₀, n.data.lookup rm.ident = some rd₀ ∧
        rd₀.state = .fetchFailed ∧ n.remove rm.ident = some n₁) := by
  unfold give at h
  split at h
  · cases h; exact .inl rfl
  · split at h
    · cases h; exact .inl rfl
    · next rm _ =>
      split at h
      · cases h
      · cases h; exact .inl rfl
      · next n₁ hc =>
        split at h
        · cases h
        · next rd hg => cases h; exact .inr ⟨rm, rd, n₁, hg, rfl, clearFetchFailed_ok hc⟩

/-- A `Give` that answers with a state parsed the request's range and added it, with the data it
built in that state. -/
theorem give_ok_state {req : GiveRequest} {fetches : List Fetch} {st : StateRemote}
    (h : n.give req fetches = .ok (.ok st, n')) :
    ∃ r rm, ∃ rd : RangeData, ∃ n₁ : Node, req.range = some r ∧ parseRangeMeta r = .ok rm ∧
      RangeData.given rm req.parents fetches = .ok rd ∧ rd.state = st ∧ n' = n₁.add rm rd := by
  unfold give at h
  split at h
  · cases h
  next r hr =>
  split at h
  · cases h
  next rm hp =>
  split at h
  · cases h
  · cases h
  split at h
  · cases h
  next rd hg =>
  cases h
  exact ⟨r, rm, rd, _, hr, hp, hg, rfl, rfl⟩

theorem give_panic {req : GiveRequest} {fetches : List Fetch} (h : n.give req fetches = .error p) :
    p = .nilParentRange ∨ ∃ ident ∈ n.data, n.remove ident = none := by
  unfold give at h
  split at h
  · cases h
  · split at h
    · cases h
    · next rm _ =>
      split at h
      · next hc => exact .inr ⟨rm.ident, clearFetchFailed_panic hc⟩
      · cases h
      · split at h
        · next hg => cases h; exact .inl (given_panic hg)
        · cases h

theorem drop_ok {range : Option Pb.Ident} {force : Bool} {r : Except NodeError Unit}
    (h : n.drop range force = .ok (r, n')) :
    n' = n ∨ ∃ ident rd, n.getRangeData range = .ok (ident, rd) ∧ rd.state ≠ .fetching ∧
      (rd.state = .taken ∨ force = true) ∧ n.remove ident = some n' := by
  unfold drop at h
  split at h
  · cases h; exact .inl rfl
  · next ident rd hg =>
    split at h
    · cases h; exact .inl rfl
    · next hf =>
      split at h
      · cases h; exact .inl rfl
      · next hs =>
        split at h
        · cases h
        · next hr =>
          cases h
          refine .inr ⟨ident, rd, hg, hf, ?_, hr⟩
          by_cases ht : rd.state = .taken
          · exact .inl ht
          · exact .inr (by simpa [ht] using hs)

theorem drop_panic {range : Option Pb.Ident} {force : Bool} (h : n.drop range force = .error p) :
    ∃ ident ∈ n.data, n.remove ident = none := by
  unfold drop at h
  split at h
  · cases h
  · next ident rd hg =>
    split at h
    · cases h
    · split at h
      · cases h
      · split at h
        · exact ⟨ident, AList.lookup_isSome.1 (by simp [(getRangeData_ok hg).1]), ‹_›⟩
        · cases h

theorem rangeInfos_panic : ∀ {rs : List RangeMeta} {p : Panic}, n.rangeInfos rs = .error p →
    ∃ r ∈ rs, n.data.lookup r.ident = none
  | [], _, h => by cases h
  | r :: rs, _, h => by
    unfold rangeInfos at h
    split at h
    · exact ⟨r, List.mem_cons_self _ _, ‹_›⟩
    · next d _ =>
      cases hi : n.rangeInfos rs with
      | error p' =>
        obtain ⟨r', hr', hl⟩ := rangeInfos_panic hi
        exact ⟨r', List.mem_cons_of_mem _ hr', hl⟩
      | ok is => rw [hi] at h; cases h

/-- `Info` reports every range of the slice that has data, under its decoded ident. -/
theorem rangeInfos_mem : ∀ {rs : List RangeMeta} {is : List RangeInfo}, n.rangeInfos rs = .ok is →
    ∀ r ∈ rs, ∀ d, n.data.lookup r.ident = some d →
      ⟨⟨some ⟨r.ident.decode.1, r.ident.decode.2⟩, r.start, r.end⟩, d.state,
        UInt64.ofNat d.data.entries.length⟩ ∈ is
  | [], _, _ => by simp
  | r :: rs, _, h => by
    unfold rangeInfos at h
    split at h
    · cases h
    next d' hl =>
    cases hi : n.rangeInfos rs with
    | error p => rw [hi] at h; cases h
    | ok is =>
      rw [hi] at h
      cases h
      intro r' hr' d hd
      rcases List.mem_cons.1 hr' with rfl | hr'
      · cases hl.symm.trans hd
        exact List.mem_cons_self _ _
      · exact List.mem_cons_of_mem _ (rangeInfos_mem hi r' hr' d hd)

theorem findRangeData_ok {k : Bytes} (h : n.findRangeData k = .ok (.ok (ident, rd))) :
    n.data.lookup ident = some rd ∧ ∃ rm ∈ n.ranges.ranges, rm.ident = ident ∧ rm.contains k = true := by
  unfold findRangeData at h
  split at h
  · cases h
  · split at h
    · cases h
    · next ident' hf =>
      split at h
      · cases h
      · next hl => cases h; exact ⟨hl, Ranges.find_spec hf⟩

theorem findRangeData_panic {k : Bytes} (h : n.findRangeData k = .error p) :
    ∃ rm ∈ n.ranges.ranges, n.data.lookup rm.ident = none := by
  unfold findRangeData at h
  split at h
  · cases h
  · split at h
    · cases h
    · next ident' hf =>
      split at h
      · next hl =>
        obtain ⟨rm, hrm, rfl, -⟩ := Ranges.find_spec hf
        exact ⟨rm, hrm, hl⟩
      · cases h

theorem put_ok {k : Bytes} {value : Option Bytes} {r : Except NodeError Unit}
    (h : n.put k value = .ok (r, n')) :
    n' = n ∨ ∃ ident rd, n.findRangeData k = .ok (.ok (ident, rd)) ∧ rd.state = .ready ∧
      n' = n.setRangeData ident { rd with data := putValue rd.data k value } := by
  unfold put at h
  split at h
  · cases h
  · cases h; exact .inl rfl
  · next ident rd hf =>
    split at h
    · cases h; exact .inl rfl
    · next hs => cases h; exact .inr ⟨ident, rd, hf, by simpa using hs, rfl⟩

theorem put_panic {k : Bytes} {value : Option Bytes} (h : n.put k value = .error p) :
    ∃ rm ∈ n.ranges.ranges, n.data.lookup rm.ident = none := by
  unfold put at h
  split at h
  · exact findRangeData_panic ‹_›
  · cases h
  · split at h <;> cases h

theorem get_panic {k : Bytes} (h : n.get k = .error p) :
    ∃ rm ∈ n.ranges.ranges, n.data.lookup rm.ident = none := by
  unfold get at h
  split at h
  · exact findRangeData_panic ‹_›
  · cases h
  · split at h
    · cases h
    · split at h <;> cases h

theorem dump_of_lookup {pbi : Pb.Ident} (hp : parseIdent pbi = .ok ident)
    (hl : n.data.lookup ident = some rd) (ht : rd.state = .taken) :
    n.dump (some pbi) = .ok (rd.data.entries.map fun p => (p.1, p.2)) := by
  simp [dump, getRangeData, hp, hl, ht]

end Node

/-! ## Requests and runs -/

/-- A request to the node; a `Give` comes with what its fetches got from the parents. -/
inductive Request
  | give (req : GiveRequest) (fetches : List Fetch)
  | serve (range : Option Pb.Ident) (force : Bool)
  | take (range : Option Pb.Ident)
  | drop (range : Option Pb.Ident) (force : Bool)
  | info
  | dump (range : Option Pb.Ident)
  | get (key : Bytes)
  | put (key : Bytes) (value : Option Bytes)

/-- The replies of the handlers; `empty` is the empty `ServeResponse`, `TakeResponse`,
`DropResponse` and `PutResponse`. -/
inductive Response
  | give (state : StateRemote)
  | empty
  | info (ranges : List RangeInfo)
  | dump (pairs : List (Bytes × Bytes))
  | get (value : Bytes)

/-- A `Give`'s fetches are one per parent, in some order. -/
def Request.Scheduled : Request → Prop
  | .give req fetches => (fetches.map (·.node)).Perm (req.parents.map (·.node))
  | _ => True

/-- Neither a `Serve` nor a `Drop` with `Force` set. -/
def Request.forceFree : Request → Bool
  | .serve _ force | .drop _ force => !force
  | _ => true

/-- One request handled under the node's mutex. -/
def Node.handle (n : Node) : Request → Outcome Response
  | .give req fetches => match n.give req fetches with
    | .error p => .error p
    | .ok (r, n') => .ok (r.map .give, n')
  | .serve range force => .ok ((n.serve range force).1.map fun _ => .empty, (n.serve range force).2)
  | .take range => .ok ((n.take range).1.map fun _ => .empty, (n.take range).2)
  | .drop range force => match n.drop range force with
    | .error p => .error p
    | .ok (r, n') => .ok (r.map fun _ => .empty, n')
  | .info => match n.info with
    | .error p => .error p
    | .ok is => .ok (.ok (.info is), n)
  | .dump range => .ok ((n.dump range).map .dump, n)
  | .get k => match n.get k with
    | .error p => .error p
    | .ok r => .ok (r.map .get, n)
  | .put k value => match n.put k value with
    | .error p => .error p
    | .ok (r, n') => .ok (r.map fun _ => .empty, n')

/-- `n'` is the node after `n` handles `req` without panicking. -/
def Node.Step (n : Node) (req : Request) (n' : Node) : Prop :=
  req.Scheduled ∧ ∃ r, n.handle req = .ok (r, n')

/-- The nodes a run of requests reaches from `New`. -/
def Node.Reachable (n : Node) : Prop :=
  Relation.ReflTransGen (fun a b => ∃ req, a.Step req b) Node.new n

end Ranger.Kv
