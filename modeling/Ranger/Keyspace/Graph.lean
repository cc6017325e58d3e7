/-
The catalog graph invariant. Every keyspace reachable from `New()` or `NewWithSplits(s)` by
`DoSplit`, `JoinTwo`, `Discard`, bare `Range()` calls and changes of range states keeps the shape
`Arena`: the range at pointer `p` has ident `base + p` (`base` being where the constructor started
the counter), `nextIdent` is `base + size`, parents are allocated before their children, and the
parent and child links agree. While the counter has not wrapped this gives the catalog graph
invariant `GraphInv`: distinct idents below `nextIdent`, parents with smaller idents, an acyclic
parent graph, symmetric links, and `GetByIdent` finding the one range with an ident. After
`New()` the counter wraps to 0 when the `2^64 - 1`-th range is allocated, and the bound on idents
fails there (`nextIdent_wraps`).
-/
import Ranger.Keyspace.Basic
import Mathlib.Logic.Relation
import Mathlib.Data.UInt

namespace Ranger.Keyspace

/-! ## Runs -/

/-- One call on the catalog, on ranges the keyspace allocated, or a change of a range's state made
by the code around the keyspace. -/
inductive Step (toState : Range → StateLocal → Bool) : Keyspace → Keyspace → Prop
  | doSplit {ks : Keyspace} (r : Nat) (k : Key) :
      r < ks.size → Step toState ks (ks.doSplit toState r k).2
  | joinTwo {ks : Keyspace} (one two : Nat) :
      one < ks.size → two < ks.size → Step toState ks (ks.joinTwo toState one two).2
  | discard {ks : Keyspace} (r : Nat) : r < ks.size → Step toState ks (ks.discard r).2
  | range {ks : Keyspace} : Step toState ks ks.range.2
  | setState {ks : Keyspace} (p : Nat) (s : StateLocal) :
      p < ks.size → Step toState ks (ks.setState p s)

/-! ## The arena's shape -/

/-- The shape of a reachable keyspace whose counter started at `base`. -/
structure Arena (base : Nat) (ks : Keyspace) : Prop where
  ident : ∀ p < ks.size, (ks.heap p).meta.ident = ⟨[], UInt64.ofNat (base + p)⟩
  next : ks.nextIdent = UInt64.ofNat (base + ks.size)
  ranges_lt : ∀ p ∈ ks.ranges, p < ks.size
  nodup : ks.ranges.Nodup
  parents_lt : ∀ p < ks.size, ∀ q ∈ (ks.heap p).parents, q < p
  children_lt : ∀ p < ks.size, ∀ c ∈ (ks.heap p).children, c < ks.size
  link : ∀ r < ks.size, ∀ c < ks.size, c ∈ (ks.heap r).children ↔ r ∈ (ks.heap c).parents

theorem ofNat_add_one (n : Nat) : UInt64.ofNat n + 1 = UInt64.ofNat (n + 1) := by
  apply UInt64.eq_of_toBitVec_eq
  simp [UInt64.add_def, UInt64.ofNat, BitVec.ofNat_add_ofNat]

section Links

variable {ks : Keyspace}

theorem splitChildren_children {r : Nat} (hr : r < ks.size) (k : Key) (R : Nat) :
    ((ks.splitChildren r k).heap R).children =
      if R = r then [ks.size, ks.size + 1]
      else if R = ks.size ∨ R = ks.size + 1 then [] else (ks.heap R).children := by
  rw [splitChildren_heap hr]
  by_cases e₁ : R = ks.size
  · simp [e₁]; omega
  · by_cases e₂ : R = ks.size + 1
    · simp [e₂]; omega
    · simp only [e₁, e₂, if_false, or_self]
      split_ifs <;> rfl

theorem splitChildren_parents {r : Nat} (hr : r < ks.size) (k : Key) (C : Nat) :
    ((ks.splitChildren r k).heap C).parents =
      if C = ks.size ∨ C = ks.size + 1 then [r] else (ks.heap C).parents := by
  rw [splitChildren_heap hr]
  split_ifs <;> simp_all

theorem joinChild_children {one two : Nat} (h₁ : one < ks.size) (h₂ : two < ks.size) (R : Nat) :
    ((ks.joinChild one two).heap R).children =
      if R = one ∨ R = two then [ks.size]
      else if R = ks.size then [] else (ks.heap R).children := by
  rw [joinChild_heap h₁ h₂]
  by_cases e : R = ks.size
  · simp [e]; omega
  · simp only [e, if_false]
    split_ifs <;> rfl

theorem joinChild_parents {one two : Nat} (h₁ : one < ks.size) (h₂ : two < ks.size) (C : Nat) :
    ((ks.joinChild one two).heap C).parents =
      if C = ks.size then [one, two] else (ks.heap C).parents := by
  rw [joinChild_heap h₁ h₂]
  split_ifs <;> simp_all

end Links

namespace Arena

variable {base : Nat} {ks ks' : Keyspace}

/-- `Arena` reads only idents, links, `ranges`, `size` and the counter. -/
theorem congr (h : Arena base ks) (hs : ks'.size = ks.size) (hr : ks'.ranges = ks.ranges)
    (hn : ks'.nextIdent = ks.nextIdent)
    (hh : ∀ p, (ks'.heap p).meta.ident = (ks.heap p).meta.ident ∧
      (ks'.heap p).parents = (ks.heap p).parents ∧ (ks'.heap p).children = (ks.heap p).children) :
    Arena base ks' where
  ident p hp := by rw [(hh p).1]; exact h.ident p (hs ▸ hp)
  next := by rw [hn, hs]; exact h.next
  ranges_lt p hp := hs ▸ h.ranges_lt p (hr ▸ hp)
  nodup := hr ▸ h.nodup
  parents_lt p hp q hq := h.parents_lt p (hs ▸ hp) q ((hh p).2.1 ▸ hq)
  children_lt p hp c hc := hs ▸ h.children_lt p (hs ▸ hp) c ((hh p).2.2 ▸ hc)
  link r hr c hc := by rw [(hh r).2.2, (hh c).2.1]; exact h.link r (hs ▸ hr) c (hs ▸ hc)

theorem setState (h : Arena base ks) (p : Nat) (s : StateLocal) : Arena base (ks.setState p s) :=
  h.congr rfl rfl rfl fun q => by simp

theorem range (h : Arena base ks) : Arena base ks.range.2 where
  ident p hp := by
    by_cases e : p = ks.size
    · subst e; simp [Range.ofIdent, h.next]
    · simpa [e] using h.ident p (by simp at hp; omega)
  next := by simp [h.next, ofNat_add_one, Nat.add_assoc]
  ranges_lt p hp := Nat.lt_succ_of_lt (h.ranges_lt p hp)
  nodup := h.nodup
  parents_lt p hp q hq := by
    by_cases e : p = ks.size
    · simp [e, Range.ofIdent] at hq
    · simp only [range_heap, e, if_false] at hq
      exact h.parents_lt p (by simp at hp; omega) q hq
  children_lt p hp c hc := by
    by_cases e : p = ks.size
    · simp [e, Range.ofIdent] at hc
    · simp only [range_heap, e, if_false] at hc
      exact Nat.lt_succ_of_lt (h.children_lt p (by simp at hp; omega) c hc)
  link r hr c hc := by
    simp only [range_size] at hr hc
    by_cases er : r = ks.size <;> by_cases ec : c = ks.size
    · simp [er, ec, Range.ofIdent]
    · have := h.parents_lt c (by omega)
      simp only [range_heap, er, ec, if_true, if_false, Range.ofIdent, List.not_mem_nil, false_iff]
      exact fun hm => absurd (this _ hm) (by omega)
    · have := h.children_lt r (by omega)
      simp only [range_heap, er, ec, if_true, if_false, Range.ofIdent, List.not_mem_nil, iff_false]
      exact fun hm => absurd (this _ hm) (by omega)
    · simpa [er, ec] using h.link r (by omega) c (by omega)

/-- A new range appended to `ranges`, as `NewWithSplits` does. -/
theorem push (h : Arena base ks) :
    Arena base { ks.range.2 with ranges := ks.ranges ++ [ks.size] } :=
  { h.range with
    ranges_lt := by
      simp only [List.mem_append, List.mem_singleton, range_size]
      rintro p (hp | rfl)
      · exact Nat.lt_succ_of_lt (h.ranges_lt p hp)
      · exact Nat.lt_succ_self _
    nodup := List.nodup_append.2 ⟨h.nodup, List.nodup_singleton _,
      List.disjoint_singleton.2 fun hm => Nat.lt_irrefl _ (h.ranges_lt _ hm)⟩ }

theorem splitChildren (h : Arena base ks) {r : Nat} (hr : r < ks.size)
    (hc : (ks.heap r).children = []) (k : Key) : Arena base (ks.splitChildren r k) where
  ident p hp := by
    rw [splitChildren_heap hr]
    simp only [splitChildren_size] at hp
    split_ifs with e₁ e₂ e₃
    · simp [e₁, h.next]
    · simp [e₂, h.next, ofNat_add_one, Nat.add_assoc]
    · subst e₃; exact h.ident p hr
    · exact h.ident p (by omega)
  next := by simp [h.next, ofNat_add_one, Nat.add_assoc]
  ranges_lt p hp := by
    simp only [splitChildren_ranges, List.mem_append, List.mem_cons, List.not_mem_nil,
      or_false] at hp
    rw [splitChildren_size]
    rcases hp with hp | rfl | rfl
    · exact Nat.lt_add_right 2 (h.ranges_lt p hp)
    all_goals omega
  nodup := by
    rw [splitChildren_ranges]
    refine List.nodup_append.2 ⟨h.nodup, by simp, ?_⟩
    intro p hp hp'
    have := h.ranges_lt p hp
    simp at hp'
    omega
  parents_lt p hp q hq := by
    rw [splitChildren_parents hr] at hq
    simp only [splitChildren_size] at hp
    split_ifs at hq with e
    · rw [List.mem_singleton.1 hq]; omega
    · exact h.parents_lt p (by omega) q hq
  children_lt p hp c hc := by
    rw [splitChildren_children hr] at hc
    simp only [splitChildren_size] at hp ⊢
    split_ifs at hc with e₁ e₂
    · simp only [List.mem_cons, List.not_mem_nil, or_false] at hc; omega
    · exact absurd hc (List.not_mem_nil c)
    · have := h.children_lt p (by omega) c hc; omega
  link R hR C hC := by
    simp only [splitChildren_size] at hR hC
    rw [splitChildren_children hr, splitChildren_parents hr]
    by_cases hCn : C = ks.size ∨ C = ks.size + 1
    · rw [if_pos hCn, List.mem_singleton]
      split_ifs with hRr hRn
      · simp [hRr]; omega
      · simp [hRr]
      · refine ⟨fun hm => absurd (h.children_lt R (by omega) C hm) (by omega), fun e => ?_⟩
        exact absurd e hRr
    · rw [if_neg hCn]
      split_ifs with hRr hRn
      · subst hRr
        simp only [List.mem_cons, List.not_mem_nil, or_false, hCn, false_iff]
        rw [← h.link R hr C (by omega), hc]
        simp
      · simp only [List.not_mem_nil, false_iff]
        exact fun hm => absurd (h.parents_lt C (by omega) R hm) (by omega)
      · exact h.link R (by omega) C (by omega)

theorem joinChild (h : Arena base ks) {one two : Nat} (h₁ : one < ks.size) (h₂ : two < ks.size)
    (c₁ : (ks.heap one).children = []) (c₂ : (ks.heap two).children = []) :
    Arena base (ks.joinChild one two) where
  ident p hp := by
    rw [joinChild_heap h₁ h₂]
    simp only [joinChild_size] at hp
    split_ifs with e₁ e₂
    · simp [e₁, h.next]
    · exact h.ident p (by omega)
    · exact h.ident p (by omega)
  next := by simp [h.next, ofNat_add_one, Nat.add_assoc]
  ranges_lt p hp := by
    simp only [joinChild_ranges, List.mem_append, List.mem_singleton] at hp
    rcases hp with hp | rfl
    · exact Nat.lt_succ_of_lt (h.ranges_lt p hp)
    · exact Nat.lt_succ_self _
  nodup := by
    rw [joinChild_ranges]
    exact List.nodup_append.2 ⟨h.nodup, List.nodup_singleton _,
      List.disjoint_singleton.2 fun hm => Nat.lt_irrefl _ (h.ranges_lt _ hm)⟩
  parents_lt p hp q hq := by
    rw [joinChild_parents h₁ h₂] at hq
    simp only [joinChild_size] at hp
    split_ifs at hq with e
    · simp only [List.mem_cons, List.not_mem_nil, or_false] at hq; omega
    · exact h.parents_lt p (by omega) q hq
  children_lt p hp c hc := by
    rw [joinChild_children h₁ h₂] at hc
    simp only [joinChild_size] at hp ⊢
    split_ifs at hc with e₁ e₂
    · rw [List.mem_singleton.1 hc]; omega
    · exact absurd hc (List.not_mem_nil c)
    · have := h.children_lt p (by omega) c hc; omega
  link R hR C hC := by
    simp only [joinChild_size] at hR hC
    rw [joinChild_children h₁ h₂, joinChild_parents h₁ h₂]
    by_cases hCn : C = ks.size
    · subst hCn
      rw [if_pos rfl]
      split_ifs with hRo hRn
      · simpa using hRo
      · simpa using hRo
      · simp only [List.mem_cons, List.not_mem_nil, or_false]
        refine ⟨fun hm => absurd (h.children_lt R (by omega) _ hm) (by omega), fun e => ?_⟩
        exact absurd e hRo
    · rw [if_neg hCn]
      split_ifs with hRo hRn
      · simp only [List.mem_singleton, hCn, false_iff]
        rcases hRo with rfl | rfl
        · rw [← h.link _ h₁ C (by omega), c₁]; simp
        · rw [← h.link _ h₂ C (by omega), c₂]; simp
      · simp only [List.not_mem_nil, false_iff]
        exact fun hm => absurd (h.parents_lt C (by omega) R hm) (by omega)
      · exact h.link R (by omega) C (by omega)

theorem eraseIdx (h : Arena base ks) (i : Nat) :
    Arena base { ks with ranges := ks.ranges.eraseIdx i } :=
  { h with
    ranges_lt := fun p hp => h.ranges_lt p (List.mem_of_mem_eraseIdx hp)
    nodup := h.nodup.sublist (List.eraseIdx_sublist _ _) }

variable {toState : Range → StateLocal → Bool}

/-- Every call keeps the arena's shape. -/
theorem step (h : Arena base ks) (hs : Step toState ks ks') : Arena base ks' := by
  cases hs with
  | doSplit r k hr =>
    rcases @doSplit_cases toState ks r k with ⟨-, e⟩ | ⟨-, ok, e⟩
    · rwa [e]
    · rw [e]; exact (h.setState r _).splitChildren hr (by simpa using ok.childless) k
  | joinTwo one two h₁ h₂ =>
    rcases @joinTwo_cases toState ks one two with ⟨-, e⟩ | ⟨-, e, -⟩ | ⟨-, ok, e⟩
    · rwa [e]
    · rw [e]; exact h.setState one _
    · rw [e]
      exact ((h.setState one _).setState two _).joinChild h₁ h₂ (by simpa using ok.childless_one)
        (by simpa using ok.childless_two)
  | discard r hr =>
    rcases discard_cases ks r with ⟨-, e⟩ | ⟨-, -, -, i, -, -, e⟩
    · rwa [e]
    · rw [e]; exact h.eraseIdx i
  | range => exact h.range
  | setState p s hp => exact h.setState p s

theorem reach (h : Arena base ks) (hr : Relation.ReflTransGen (Step toState) ks ks') :
    Arena base ks' := by
  induction hr with
  | refl => exact h
  | tail _ hs ih => exact ih.step hs

end Arena

/-! ## The constructors -/

theorem empty_arena (base : Nat) :
    Arena base ⟨fun _ => Range.ofIdent ⟨[], 0⟩, 0, [], UInt64.ofNat base⟩ where
  ident _ hp := absurd hp (Nat.not_lt_zero _)
  next := rfl
  ranges_lt _ hp := absurd hp (List.not_mem_nil _)
  nodup := List.nodup_nil
  parents_lt _ hp := absurd hp (Nat.not_lt_zero _)
  children_lt _ hp := absurd hp (Nat.not_lt_zero _)
  link _ hr := absurd hr (Nat.not_lt_zero _)

theorem arena_new : Arena 1 new :=
  ((empty_arena 1).push.setState 0 .pending).congr rfl rfl rfl fun _ => ⟨rfl, rfl, rfl⟩

/-- A range allocated and given its bounds, as each turn of `NewWithSplits`'s loop does. -/
theorem Arena.pushBounds {base : Nat} {ks : Keyspace} {rs : List Nat}
    (h : Arena base { ks with ranges := rs }) (s e : Key) :
    Arena base { ks.range.2.modify ks.size (fun x => { x with meta.start := s, meta.end := e }) with
      ranges := rs ++ [ks.size] } :=
  h.push.congr rfl rfl rfl fun q => by
    by_cases e : q = ks.size <;> simp [e]

theorem arena_newWithSplitsLoop {base : Nat} :
    ∀ (splits : List Key) (ks : Keyspace) (rs : List Nat) (s : Key),
      Arena base { ks with ranges := rs } → Arena base (newWithSplitsLoop ks rs s splits)
  | [], _, _, s, h => h.pushBounds s ZeroKey
  | e :: splits, _, _, s, h => arena_newWithSplitsLoop splits _ _ e (h.pushBounds s e)

theorem arena_newWithSplits (splits : List Key) : Arena 0 (newWithSplits splits) :=
  arena_newWithSplitsLoop splits _ [] ZeroKey (empty_arena 0)

/-! ## The catalog graph invariant -/

/-- The catalog graph invariant: the ranges of `ranges` have distinct idents below `nextIdent`;
every allocated range's parents have smaller idents, so no range is its own ancestor; a range is
among another's children exactly when that one is among its parents; and `GetByIdent` finds
each range of `ranges` by its ident. -/
structure GraphInv (ks : Keyspace) : Prop where
  idents_nodup : (ks.ranges.map fun p => (ks.heap p).meta.ident).Nodup
  ident_lt_next : ∀ p ∈ ks.ranges, (ks.heap p).meta.ident.key < ks.nextIdent
  parent_ident_lt : ∀ p < ks.size, ∀ q ∈ (ks.heap p).parents,
    (ks.heap q).meta.ident.key < (ks.heap p).meta.ident.key
  acyclic : ∀ p < ks.size, ¬ Relation.TransGen (fun a b => a ∈ (ks.heap b).parents) p p
  link : ∀ r < ks.size, ∀ c < ks.size, c ∈ (ks.heap r).children ↔ r ∈ (ks.heap c).parents
  getByIdent_eq : ∀ p ∈ ks.ranges, ks.getByIdent (ks.heap p).meta.ident = .ok p

theorem uint64_lt_iff {a b : UInt64} : a < b ↔ a.toNat < b.toNat :=
  UInt64.lt_def.trans BitVec.lt_def

namespace Arena

variable {base : Nat} {ks : Keyspace}

theorem key_toNat (h : Arena base ks) (hb : base + ks.size < 2 ^ 64) {p : Nat} (hp : p < ks.size) :
    (ks.heap p).meta.ident.key.toNat = base + p := by
  rw [h.ident p hp]
  exact UInt64.toNat_ofNat_of_lt (by unfold UInt64.size; omega)

theorem next_toNat (h : Arena base ks) (hb : base + ks.size < 2 ^ 64) :
    ks.nextIdent.toNat = base + ks.size := by
  rw [h.next]
  exact UInt64.toNat_ofNat_of_lt (by unfold UInt64.size; omega)

theorem ident_inj (h : Arena base ks) (hb : base + ks.size < 2 ^ 64) {p q : Nat}
    (hp : p < ks.size) (hq : q < ks.size) (e : (ks.heap p).meta.ident = (ks.heap q).meta.ident) :
    p = q := by
  have := congrArg (fun i => i.key.toNat) e
  simp only [h.key_toNat hb hp, h.key_toNat hb hq] at this
  omega

/-- Following parent links always leads to earlier allocations. -/
theorem transGen_lt (h : Arena base ks) {a b : Nat}
    (ht : Relation.TransGen (fun a b => a ∈ (ks.heap b).parents) a b) (hb : b < ks.size) : a < b := by
  induction ht with
  | single hab => exact h.parents_lt _ hb _ hab
  | tail _ hbc ih =>
    have := h.parents_lt _ hb _ hbc
    exact lt_trans (ih (lt_trans this hb)) this

theorem graphInv (h : Arena base ks) (hb : base + ks.size < 2 ^ 64) : GraphInv ks where
  idents_nodup := h.nodup.map_on fun p hp q hq e =>
    h.ident_inj hb (h.ranges_lt p hp) (h.ranges_lt q hq) e
  ident_lt_next p hp := by
    rw [uint64_lt_iff, h.key_toNat hb (h.ranges_lt p hp), h.next_toNat hb]
    have := h.ranges_lt p hp
    omega
  parent_ident_lt p hp q hq := by
    have := h.parents_lt p hp q hq
    rw [uint64_lt_iff, h.key_toNat hb (lt_trans this hp), h.key_toNat hb hp]
    omega
  acyclic p hp ht := Nat.lt_irrefl _ (h.transGen_lt ht hp)
  link := h.link
  getByIdent_eq p hp := by
    unfold getByIdent
    rcases hf : ks.ranges.find? (fun r => (ks.heap r).meta.ident == (ks.heap p).meta.ident) with
      _ | q
    · exact absurd (List.find?_eq_none.1 hf p hp) (by simp)
    · have hq := List.mem_of_find?_eq_some hf
      have e : (ks.heap q).meta.ident = (ks.heap p).meta.ident := by simpa using List.find?_some hf
      rw [h.ident_inj hb (h.ranges_lt q hq) (h.ranges_lt p hp) e]

end Arena

/-- The catalog graph invariant holds in every keyspace reachable from `New()` while fewer than
`2^64 - 1` ranges have been allocated, and in every keyspace reachable from `NewWithSplits(s)`
while fewer than `2^64` have: as long as `nextIdent` has not wrapped around. -/
theorem catalog_graph_inv (toState : Range → StateLocal → Bool) :
    (∀ ks, Relation.ReflTransGen (Step toState) new ks → ks.size < 2 ^ 64 - 1 → GraphInv ks) ∧
    (∀ splits ks, Relation.ReflTransGen (Step toState) (newWithSplits splits) ks →
      ks.size < 2 ^ 64 → GraphInv ks) :=
  ⟨fun _ hr hn => (arena_new.reach hr).graphInv (by omega),
   fun splits _ hr hn => ((arena_newWithSplits splits).reach hr).graphInv (by omega)⟩

/-- `New()`; range 0 made `Ready` and split at `[109]` into ranges 1 and 2, which are made
`Ready`; range 0 made `Obsolete` and discarded; ranges 1 and 2 joined into range 3. -/
def splitRejoined : Keyspace :=
  ((((((new.setState 0 .ready).doSplit (fun _ _ => true) 0 [109]).2.setState 1 .ready).setState 2
    .ready).setState 0 .obsolete).discard 0).2.joinTwo (fun _ _ => true) 1 2 |>.2

/-- `NewWithSplits([[109]])`, both ranges made `Ready` and joined into range 2. -/
def rejoinedSplits : Keyspace :=
  (((newWithSplits [[109]]).setState 0 .ready).setState 1 .ready).joinTwo (fun _ _ => true) 0 1 |>.2

/-- The run to `splitRejoined`, then one more range allocated; and the run to `rejoinedSplits`. -/
theorem catalog_graph_inv_split_rejoined :
    Relation.ReflTransGen (Step fun _ _ => true) new splitRejoined.range.2 ∧
    Relation.ReflTransGen (Step fun _ _ => true) (newWithSplits [[109]]) rejoinedSplits ∧
    GraphInv splitRejoined.range.2 ∧ GraphInv rejoinedSplits :=
  have h₁ : Relation.ReflTransGen (Step fun _ _ => true) new splitRejoined.range.2 :=
    .tail (.tail (.tail (.tail (.tail (.tail (.tail (.single
      (.setState 0 .ready (by decide))) (.doSplit 0 [109] (by decide)))
      (.setState 1 .ready (by decide))) (.setState 2 .ready (by decide)))
      (.setState 0 .obsolete (by decide))) (.discard 0 (by decide)))
      (.joinTwo 1 2 (by decide) (by decide))) .range
  have h₂ : Relation.ReflTransGen (Step fun _ _ => true) (newWithSplits [[109]]) rejoinedSplits :=
    .tail (.tail (.single (.setState 0 .ready (by decide))) (.setState 1 .ready (by decide)))
      (.joinTwo 0 1 (by decide) (by decide))
  ⟨h₁, h₂, (catalog_graph_inv fun _ _ => true).1 _ h₁ (by decide),
    (catalog_graph_inv fun _ _ => true).2 [[109]] _ h₂ (by decide)⟩

/-! ## Where the counter wraps -/

theorem range_iterate_size (n : Nat) (ks : Keyspace) :
    ((fun ks : Keyspace => ks.range.2)^[n] ks).size = ks.size + n := by
  induction n generalizing ks with
  | zero => rfl
  | succ n ih => rw [Function.iterate_succ_apply, ih]; simp; omega

theorem range_iterate_ranges (n : Nat) (ks : Keyspace) :
    ((fun ks : Keyspace => ks.range.2)^[n] ks).ranges = ks.ranges := by
  induction n generalizing ks with
  | zero => rfl
  | succ n ih => rw [Function.iterate_succ_apply, ih]; rfl

theorem range_iterate_reach (toState : Range → StateLocal → Bool) (n : Nat) (ks : Keyspace) :
    Relation.ReflTransGen (Step toState) ks ((fun ks : Keyspace => ks.range.2)^[n] ks) := by
  induction n with
  | zero => exact .refl
  | succ n ih => rw [Function.iterate_succ_apply']; exact ih.tail .range

/-- After `New()`, `2^64 - 2` bare `Range()` calls allocate the `2^64 - 1`-th range and wrap
`nextIdent` to 0, so the first range's ident 1 is no longer below it, although fewer than `2^64`
ranges have been allocated. -/
theorem nextIdent_wraps :
    ∃ ks, Relation.ReflTransGen (Step fun _ _ => true) new ks ∧
      ks.size < 2 ^ 64 ∧ ∃ p ∈ ks.ranges, ¬ (ks.heap p).meta.ident.key < ks.nextIdent := by
  obtain ⟨ks, hreach, hs, hr⟩ : ∃ ks, Relation.ReflTransGen (Step fun _ _ => true) new ks ∧
      ks.size = 2 ^ 64 - 1 ∧ ks.ranges = [0] :=
    ⟨_, range_iterate_reach _ (2 ^ 64 - 2) new, range_iterate_size _ _,
      range_iterate_ranges _ _⟩
  have ha := arena_new.reach hreach
  refine ⟨ks, hreach, by omega, 0, by simp [hr], ?_⟩
  rw [ha.ident 0 (by omega), ha.next, hs]
  decide

end Ranger.Keyspace
