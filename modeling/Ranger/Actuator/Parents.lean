/-
`GetParents` of `pkg/actuator/util/parents.go`: the `pb.Parent` payload of a range, one entry per
range reachable from it through `Parents`, built by the recursive `addParents`, which stops at an
ident already in `seen`. The recursion has no bound in Go; the model gives it fuel, one unit per
range of the keyspace and one for the range it starts from, and `getParents_closure` shows that this
fuel never runs out. It also shows that the payload is the reachable closure: the range's own entry
first, one entry per reachable range, no ident twice, each entry the range's meta and, per
placement in order, the address of its node and its state.

The keyspace (`pkg/keyspace`, not under src/) is the list of its ranges, and `ks.Get` the first of
them with the ident. The roster (`pkg/roster`, not under src/) enters as the function from a node id
to the address of the node, `none` where `NodeByIdent` returns nil. `PlacementStateToProto` and
`MetaToProto` (not under src/) keep the state and the meta.
-/
import Ranger.Keyspace.Basic
import Ranger.Api
import Mathlib.Logic.Relation

namespace Ranger.Actuator

open Keyspace (Ident Meta)
open Api (PlacementState)

/-! ## Ranges and payloads -/

/-- A placement of a `ranje.Range`: its node and its state. -/
structure Placement where
  nodeID : String
  state : PlacementState
deriving DecidableEq, Repr

/-- The fields of `ranje.Range` that `GetParents` reads. -/
structure Range where
  meta : Meta
  parents : List Ident
  placements : List Placement
deriving DecidableEq, Repr

/-- `pb.Placement`. -/
structure PbPlacement where
  node : String
  state : PlacementState
deriving DecidableEq, Repr

/-- `pb.Parent`. -/
structure PbParent where
  range : Meta
  placements : List PbPlacement
deriving DecidableEq, Repr

/-- Modelled from the spec: `keyspace.Keyspace.Get`, the range with ident `id`. -/
def get (ks : List Range) (id : Ident) : Option Range := ks.find? (·.meta.ident = id)

/-- `pbPlacement(rost, r)`: the range's meta, and per placement, in order, the address of its node
(`""` for a node the roster does not know) and its state. -/
def pbPlacement (rost : String → Option String) (r : Range) : PbParent :=
  ⟨r.meta, r.placements.map fun p => ⟨(rost p.nodeID).getD "", p.state⟩⟩

/-- The panics of `addParents`. -/
inductive Panic
  /-- `"getting range with ident %v: %v"`, for the ident `ks.Get` did not resolve -/
  | getRange (rID : Ident)
  /-- the model's fuel ran out; Go has no such case -/
  | outOfFuel
deriving DecidableEq, Repr

/-- What `addParents` updates: the slice `*parents` and the set `seen`, listed in the order its
idents were added. -/
structure Acc where
  parents : List PbParent
  seen : List Ident
deriving DecidableEq, Repr

/-- `*parents = append(*parents, pbPlacement(rost, rang)); seen[rang.Meta.Ident] = struct{}{}`,
for each range of `qs` in turn. -/
def Acc.add (acc : Acc) (rost : String → Option String) (qs : List Range) : Acc :=
  ⟨acc.parents ++ qs.map (pbPlacement rost), acc.seen ++ qs.map (·.meta.ident)⟩

@[simp] theorem Acc.add_seen (acc : Acc) (rost : String → Option String) (qs : List Range) :
    (acc.add rost qs).seen = acc.seen ++ qs.map (·.meta.ident) := rfl

@[simp] theorem Acc.add_nil (acc : Acc) (rost : String → Option String) :
    acc.add rost [] = acc := by
  simp [Acc.add]

@[simp] theorem Acc.add_add (acc : Acc) (rost : String → Option String) (qs qs' : List Range) :
    (acc.add rost qs).add rost qs' = acc.add rost (qs ++ qs') := by
  simp [Acc.add]

/-! ## `GetParents` -/

section GetParents

variable (ks : List Range) (rost : String → Option String)

/-- The loop of `addParents` over `rang.Parents`, with `add` the recursive call. -/
def addEach (add : Range → Acc → Except Panic Acc) : List Ident → Acc → Except Panic Acc
  | [], acc => .ok acc
  | rID :: rIDs, acc => match get ks rID with
    | none => .error (.getRange rID)
    | some r => match add r acc with
      | .error p => .error p
      | .ok acc => addEach add rIDs acc

/-- `addParents`, its recursion bounded by `fuel`. -/
def addParents : Nat → Range → Acc → Except Panic Acc
  | 0, _, _ => .error .outOfFuel
  | fuel + 1, rang, acc =>
    if rang.meta.ident ∈ acc.seen then .ok acc
    else addEach ks (addParents fuel) rang.parents (acc.add rost [rang])

/-- `GetParents(ks, rost, rang)`. -/
def getParents (rang : Range) : Except Panic (List PbParent) :=
  (addParents ks rost (ks.length + 2) rang ⟨[], []⟩).map (·.parents)

/-! ## Reachability -/

/-- `a` lists a parent id that `ks.Get` resolves to `b`. -/
def ParentEdge (a b : Range) : Prop := ∃ id ∈ a.parents, get ks id = some b

variable {ks}

theorem get_spec {id : Ident} {q : Range} (h : get ks id = some q) : q ∈ ks ∧ q.meta.ident = id :=
  ⟨List.mem_of_find?_eq_some h, by simpa using List.find?_some h⟩

/-- A range reachable from `r` is `r` or a range of the keyspace. -/
theorem reaches_mem {r q : Range} (h : Relation.ReflTransGen (ParentEdge ks) r q) :
    q = r ∨ q ∈ ks := by
  induction h with
  | refl => exact .inl rfl
  | tail _ e _ =>
    obtain ⟨_, _, hg⟩ := e
    exact .inr (get_spec hg).1

/-! ## The recursion -/

variable (U : List Ident)

/-- The state a call with `fuel` starts from: `seen` lists distinct idents of `U`, and there is a
unit of fuel for every ident of `U` not yet seen, and one more. -/
structure Fueled (fuel : Nat) (seen : List Ident) : Prop where
  subset : seen ⊆ U
  nodup : seen.Nodup
  enough : U.length < seen.length + fuel

variable (ks)

/-- What a call of `addParents` on `q` from `seen` adds: ranges `qs` reachable from `q`, with idents
new and distinct, whose parents are all seen at the end; `q` is seen at the end, and comes first
when it was not seen before. -/
structure Visit (q : Range) (seen : List Ident) (qs : List Range) : Prop where
  reach : ∀ q' ∈ qs, Relation.ReflTransGen (ParentEdge ks) q q'
  closed : ∀ q' ∈ qs, ∀ id ∈ q'.parents, id ∈ seen ++ qs.map (·.meta.ident)
  mem : q.meta.ident ∈ seen ++ qs.map (·.meta.ident)
  head : q.meta.ident ∉ seen → qs.head? = some q
  nodup : (seen ++ qs.map (·.meta.ident)).Nodup

variable {ks U}

/-- A range reached from a range of `U` through the keyspace has its ident in `U`. -/
theorem ident_mem_of_reaches (hU : ∀ q ∈ ks, q.meta.ident ∈ U) {q q' : Range}
    (hq : q.meta.ident ∈ U)
    (h : Relation.ReflTransGen (ParentEdge ks) q q') : q'.meta.ident ∈ U := by
  rcases reaches_mem h with rfl | h'
  · exact hq
  · exact hU _ h'

/-- The loop over `Parents`, given that each recursive call at `fuel` visits its range. -/
theorem addEach_spec (hU : ∀ q ∈ ks, q.meta.ident ∈ U) (q : Range) (fuel : Nat)
    (ih : ∀ q' acc, q'.meta.ident ∈ U → Fueled U fuel acc.seen →
      (∀ x, Relation.ReflTransGen (ParentEdge ks) q' x → ∀ id ∈ x.parents, (get ks id).isSome) →
      ∃ qs, addParents ks rost fuel q' acc = .ok (acc.add rost qs) ∧ Visit ks q' acc.seen qs)
    (hres : ∀ x, Relation.ReflTransGen (ParentEdge ks) q x → ∀ id ∈ x.parents, (get ks id).isSome) :
    ∀ pids acc, (∀ pid ∈ pids, pid ∈ q.parents) → Fueled U fuel acc.seen →
      ∃ qs, addEach ks (addParents ks rost fuel) pids acc = .ok (acc.add rost qs) ∧
        (∀ q' ∈ qs, Relation.ReflTransGen (ParentEdge ks) q q') ∧
        (∀ q' ∈ qs, ∀ id ∈ q'.parents, id ∈ (acc.add rost qs).seen) ∧
        (∀ pid ∈ pids, pid ∈ (acc.add rost qs).seen) ∧ (acc.add rost qs).seen.Nodup
  | [], acc, _, hf => ⟨[], by simp [addEach], by simp, by simp, by simp, by simpa using hf.nodup⟩
  | pid :: pids, acc, hp, hf => by
    have hpq := hp pid (List.mem_cons_self _ _)
    obtain ⟨p, hg⟩ := Option.isSome_iff_exists.1 (hres q .refl pid hpq)
    have hedge : ParentEdge ks q p := ⟨pid, hpq, hg⟩
    obtain ⟨qs₁, e₁, v₁⟩ := ih p acc (hU p (get_spec hg).1) hf fun x hx => hres x (.head hedge hx)
    have hf₁ : Fueled U fuel (acc.add rost qs₁).seen := by
      have := hf.enough
      refine ⟨fun id hid => ?_, v₁.nodup, by simp only [Acc.add_seen, List.length_append]; omega⟩
      rcases List.mem_append.1 hid with h | h
      · exact hf.subset h
      · obtain ⟨q', hq', rfl⟩ := List.mem_map.1 h
        exact ident_mem_of_reaches hU (hU p (get_spec hg).1) (v₁.reach q' hq')
    obtain ⟨qs₂, e₂, r₂, c₂, m₂, n₂⟩ := addEach_spec hU q fuel ih hres pids (acc.add rost qs₁)
      (fun x hx => hp x (List.mem_cons_of_mem _ hx)) hf₁
    have hsub : ∀ id ∈ acc.seen ++ qs₁.map (·.meta.ident),
        id ∈ (acc.add rost (qs₁ ++ qs₂)).seen := fun id hid => by
      simp only [Acc.add_seen, List.map_append, ← List.append_assoc]
      exact List.mem_append_left _ hid
    simp only [Acc.add_add] at e₂ c₂ m₂ n₂
    refine ⟨qs₁ ++ qs₂, by simp only [addEach, hg, e₁, e₂], fun q' hq' => ?_, fun q' hq' => ?_,
      fun x hx => ?_, n₂⟩
    · rcases List.mem_append.1 hq' with h | h
      · exact .head hedge (v₁.reach q' h)
      · exact r₂ q' h
    · rcases List.mem_append.1 hq' with h | h
      · exact fun id hid => hsub id (v₁.closed q' h id hid)
      · exact c₂ q' h
    · rcases List.mem_cons.1 hx with rfl | h
      · exact hsub _ ((get_spec hg).2 ▸ v₁.mem)
      · exact m₂ x h

/-- Each call of `addParents` with enough fuel visits its range. -/
theorem addParents_spec (hU : ∀ q ∈ ks, q.meta.ident ∈ U) :
    ∀ fuel (q : Range) (acc : Acc), q.meta.ident ∈ U → Fueled U fuel acc.seen →
      (∀ x, Relation.ReflTransGen (ParentEdge ks) q x → ∀ id ∈ x.parents, (get ks id).isSome) →
      ∃ qs, addParents ks rost fuel q acc = .ok (acc.add rost qs) ∧ Visit ks q acc.seen qs
  | 0, _, _, _, hf, _ =>
    absurd hf.enough (not_lt.2 (List.subperm_of_subset hf.nodup hf.subset).length_le)
  | fuel + 1, q, acc, hq, hf, hres => by
    by_cases hs : q.meta.ident ∈ acc.seen
    · exact ⟨[], by simp [addParents, hs], ⟨by simp, by simp, by simpa, fun h => absurd hs h,
        by simpa using hf.nodup⟩⟩
    have hnd : (acc.add rost [q]).seen.Nodup := by
      simpa [List.nodup_append] using ⟨hf.nodup, hs⟩
    have hf' : Fueled U fuel (acc.add rost [q]).seen := by
      refine ⟨fun id hid => ?_, hnd, by simp only [Acc.add_seen, List.length_append]; simpa using
        (by have := hf.enough; omega : U.length < acc.seen.length + 1 + fuel)⟩
      rcases List.mem_append.1 hid with h | h
      · exact hf.subset h
      · simpa [List.mem_singleton.1 (by simpa using h)] using hq
    obtain ⟨qs, e, hreach, hclosed, hpids, hnd'⟩ := addEach_spec rost hU q fuel
      (addParents_spec hU fuel) hres q.parents (acc.add rost [q]) (fun _ h => h) hf'
    simp only [Acc.add_add, List.singleton_append] at e hclosed hpids hnd'
    refine ⟨q :: qs, by rw [addParents, if_neg hs, e], ⟨?_, ?_, ?_, fun _ => rfl, hnd'⟩⟩
    · rintro q' (_ | ⟨_, h⟩)
      exacts [.refl, hreach q' h]
    · rintro q' (_ | ⟨_, h⟩)
      exacts [hpids, hclosed q' h]
    · simp

/-! ## The payload -/

/-- An entry is `pbPlacement` of a range exactly when it holds the range's meta and, per
placement in order, the address of its node and its state. -/
theorem eq_pbPlacement_iff (p : PbParent) (q : Range) :
    p = pbPlacement rost q ↔ p.range = q.meta ∧
      p.placements = q.placements.map fun pl => ⟨(rost pl.nodeID).getD "", pl.state⟩ := by
  cases p
  simp [pbPlacement]

/-- Whenever `ks.Get` resolves every parent id of every range reachable from `r`, and no two
reachable ranges share an ident, `GetParents(ks, rost, r)` returns, even through cycles of
`Parents`, one entry per range reachable from `r` and no ident twice: first `r`'s, and for each
reachable range its meta and, per placement in order, the address of its node and its state. -/
theorem getParents_closure (r : Range)
    (hres : ∀ q, Relation.ReflTransGen (ParentEdge ks) r q → ∀ id ∈ q.parents, (get ks id).isSome)
    (huniq : ∀ q₁ q₂, Relation.ReflTransGen (ParentEdge ks) r q₁ →
      Relation.ReflTransGen (ParentEdge ks) r q₂ → q₁.meta.ident = q₂.meta.ident → q₁ = q₂) :
    ∃ ps, getParents ks rost r = .ok ps ∧
      ps.head? = some ⟨r.meta, r.placements.map fun pl => ⟨(rost pl.nodeID).getD "", pl.state⟩⟩ ∧
      (ps.map (·.range.ident)).Nodup ∧
      ∀ p, p ∈ ps ↔ ∃ q, Relation.ReflTransGen (ParentEdge ks) r q ∧ p.range = q.meta ∧
        p.placements = q.placements.map fun pl => ⟨(rost pl.nodeID).getD "", pl.state⟩ := by
  obtain ⟨qs, e, v⟩ := addParents_spec rost (U := (r :: ks).map (·.meta.ident))
    (fun q hq => List.mem_map_of_mem _ (List.mem_cons_of_mem _ hq)) (ks.length + 2) r ⟨[], []⟩
    (List.mem_map_of_mem _ (List.mem_cons_self _ _)) ⟨List.nil_subset _, List.nodup_nil, by simp⟩
    hres
  have hhead : qs.head? = some r := v.head (List.not_mem_nil _)
  have hall : ∀ q, Relation.ReflTransGen (ParentEdge ks) r q → q ∈ qs := by
    intro q hq
    induction hq with
    | refl => exact List.mem_of_mem_head? hhead
    | tail hra hab ih =>
      obtain ⟨id, hid, hg⟩ := hab
      obtain ⟨b', hb', hid'⟩ := List.mem_map.1 (by simpa using v.closed _ ih id hid)
      rwa [← huniq b' _ (v.reach b' hb') (.tail hra ⟨id, hid, hg⟩)
        (hid'.trans (get_spec hg).2.symm)]
  refine ⟨qs.map (pbPlacement rost), by rw [getParents, e]; rfl, by simp [hhead, pbPlacement], ?_,
    fun p => ?_⟩
  · simpa [Function.comp_def, pbPlacement] using v.nodup
  · simp only [List.mem_map, ← eq_pbPlacement_iff]
    constructor
    · rintro ⟨q, hq, rfl⟩; exact ⟨q, v.reach q hq, rfl⟩
    · rintro ⟨q, hq, rfl⟩; exact ⟨q, hall q hq, rfl⟩

/-- Every parent id of a range of the keyspace, or of `r`, resolving is enough for `r`'s closure. -/
theorem resolves_of_parents {r : Range} (h : ∀ q ∈ r :: ks, ∀ id ∈ q.parents, (get ks id).isSome) :
    ∀ q, Relation.ReflTransGen (ParentEdge ks) r q → ∀ id ∈ q.parents, (get ks id).isSome := by
  intro q hq
  rcases reaches_mem hq with rfl | h'
  exacts [h q (List.mem_cons_self _ _), h q (List.mem_cons_of_mem _ h')]

/-- From a range that `ks.Get` returns for its own ident, every reachable range is the one `ks.Get`
returns for its ident, so no two of them share an ident. -/
theorem unique_of_get_self {r : Range} (hr : get ks r.meta.ident = some r) :
    ∀ q₁ q₂, Relation.ReflTransGen (ParentEdge ks) r q₁ →
      Relation.ReflTransGen (ParentEdge ks) r q₂ → q₁.meta.ident = q₂.meta.ident → q₁ = q₂ := by
  have hget : ∀ q, Relation.ReflTransGen (ParentEdge ks) r q → get ks q.meta.ident = some q := by
    intro q hq
    induction hq with
    | refl => exact hr
    | tail _ e _ =>
      obtain ⟨_, _, hg⟩ := e
      rwa [(get_spec hg).2]
  intro q₁ q₂ h₁ h₂ he
  exact Option.some.inj ((hget q₁ h₁).symm.trans (he ▸ hget q₂ h₂))

end GetParents

/-- Ranges 1 and 2, each the other's parent; range 1 has one placement, on node `"a"`. -/
def cycleRange : Range := ⟨⟨⟨[], 1⟩, [], [109]⟩, [⟨[], 2⟩], [⟨"a", .active⟩]⟩

/-- The keyspace of `cycleRange` and its parent, which has a placement on node `"b"`. -/
def cycleKeyspace : List Range :=
  [cycleRange, ⟨⟨⟨[], 2⟩, [109], []⟩, [⟨[], 1⟩], [⟨"b", .pending⟩]⟩]

/-- The roster knows node `"a"` only. -/
def cycleRoster (n : String) : Option String := if n = "a" then some "a:1" else none

theorem getParents_closure_cycle :
    (∀ q, Relation.ReflTransGen (ParentEdge cycleKeyspace) cycleRange q →
      ∀ id ∈ q.parents, (get cycleKeyspace id).isSome) ∧
    (∀ q₁ q₂, Relation.ReflTransGen (ParentEdge cycleKeyspace) cycleRange q₁ →
      Relation.ReflTransGen (ParentEdge cycleKeyspace) cycleRange q₂ →
      q₁.meta.ident = q₂.meta.ident → q₁ = q₂) ∧
    getParents cycleKeyspace cycleRoster cycleRange =
      .ok [⟨⟨⟨[], 1⟩, [], [109]⟩, [⟨"a:1", .active⟩]⟩, ⟨⟨⟨[], 2⟩, [109], []⟩, [⟨"", .pending⟩]⟩] ∧
    ∃ ps, getParents cycleKeyspace cycleRoster cycleRange = .ok ps ∧
      ps.head? = some ⟨cycleRange.meta, cycleRange.placements.map fun pl =>
        ⟨(cycleRoster pl.nodeID).getD "", pl.state⟩⟩ ∧
      (ps.map (·.range.ident)).Nodup ∧
      ∀ p, p ∈ ps ↔ ∃ q, Relation.ReflTransGen (ParentEdge cycleKeyspace) cycleRange q ∧
        p.range = q.meta ∧
        p.placements = q.placements.map fun pl => ⟨(cycleRoster pl.nodeID).getD "", pl.state⟩ := by
  have hres := @resolves_of_parents cycleKeyspace cycleRange (by decide)
  have huniq := @unique_of_get_self cycleKeyspace cycleRange (by decide)
  exact ⟨hres, huniq, by decide, getParents_closure _ _ hres huniq⟩

end Ranger.Actuator
