/-
Cover of the key space by the catalog. A key's owners are the childless ranges of `ranges` that
contain it. `NewWithSplits` of a strictly increasing list of keys other than `ZeroKey`, and
`New`, start with exactly one owner per key; `DoSplit`, `Discard`, changes of state, and
`JoinTwo` of two ranges meeting at a key other than `ZeroKey` keep it so. `JoinTwo` of
`[m, +∞)` and `(-∞, m)` also passes the adjacency check `one.End == two.Start`, both sides being
`ZeroKey`, and creates the empty range `[m, m)`: afterwards the keys below `m` have no owner
(`joinTwo_zeroKey_uncovers`).
-/
import Ranger.Keyspace.Graph
import Mathlib.Data.List.Nodup

namespace Ranger.Keyspace

/-! ## Owners of a key -/

/-- `p` is childless and contains `k`. -/
def ownsKey (ks : Keyspace) (k : Key) (p : Nat) : Bool :=
  (ks.heap p).children.isEmpty && (ks.heap p).meta.contains k

/-- How many childless ranges of `ranges` contain `k`. -/
def owners (ks : Keyspace) (k : Key) : Nat := ks.ranges.countP (ownsKey ks k)

/-- Joining `[m, +∞)` with `(-∞, m)`, for `m = "m"`: before, the key `"a"` has one owner; the join
succeeds; after it, `"a"` has none. -/
theorem joinTwo_zeroKey_uncovers :
    owners (((newWithSplits [[109]]).setState 0 .ready).setState 1 .ready) [97] = 1 ∧
    ((((newWithSplits [[109]]).setState 0 .ready).setState 1 .ready).joinTwo
      (fun _ _ => true) 1 0).1 = .ok 2 ∧
    owners ((((newWithSplits [[109]]).setState 0 .ready).setState 1 .ready).joinTwo
      (fun _ _ => true) 1 0).2 [97] = 0 := by
  decide

/-- The cover invariant: every key has exactly one owner, and every childless range of `ranges`
contains some key. -/
structure CoverInv (ks : Keyspace) : Prop where
  cover : ∀ k, owners ks k = 1
  nonempty : ∀ p ∈ ks.ranges, (ks.heap p).children = [] → ∃ k, (ks.heap p).meta.contains k = true

/-- Two tests that agree on a duplicate-free list except at one of its elements `a` count the
same, up to what they say at `a`. -/
theorem countP_add_of_agree {l : List Nat} (hnd : l.Nodup) {a : Nat} (ha : a ∈ l)
    (f g : Nat → Bool) (hfg : ∀ x ∈ l, x ≠ a → f x = g x) :
    l.countP f + (if g a then 1 else 0) = l.countP g + (if f a then 1 else 0) := by
  have hp := List.perm_cons_erase ha
  rw [hp.countP_eq f, hp.countP_eq g, List.countP_cons, List.countP_cons]
  have : (l.erase a).countP f = (l.erase a).countP g :=
    List.countP_congr fun x hx => by
      obtain ⟨hne, hx'⟩ := (hnd.mem_erase_iff).1 hx
      rw [hfg x hx' hne]
  omega

theorem countP_eraseIdx_of_false (p : Nat → Bool) :
    ∀ (l : List Nat) (i : Nat) (hi : i < l.length), p l[i] = false →
      (l.eraseIdx i).countP p = l.countP p
  | _ :: _, 0, _, h => by
    simp only [List.getElem_cons_zero] at h
    simp [List.countP_cons, h]
  | _ :: l, i + 1, hi, h => by
    simp only [List.getElem_cons_succ] at h
    simp only [List.eraseIdx_cons_succ, List.countP_cons,
      countP_eraseIdx_of_false p l i (by simpa using hi) h]

/-- The split law counted: a key of `[a, b)` cut at `m` lies in exactly one of the two parts. -/
theorem containsKey_split_count {a b m : Key} (hm : m ≠ ZeroKey) (hin : containsKey a b m = true)
    (x : Key) : (if containsKey a b x then 1 else 0) =
      (if containsKey a m x then 1 else 0) + (if containsKey m b x then 1 else 0) := by
  have hsplit := containsKey_split hm hin x
  have hdisj := containsKey_split_disjoint (a := a) (b := b) hm x
  revert hsplit hdisj
  cases containsKey a b x <;> cases containsKey a m x <;> cases containsKey m b x <;> simp

/-! ## Each call keeps the cover -/

namespace CoverInv

variable {ks : Keyspace}

theorem owners_setState (p : Nat) (s : StateLocal) (k : Key) :
    owners (ks.setState p s) k = owners ks k := by
  unfold owners ownsKey
  simp

theorem setState (h : CoverInv ks) (p : Nat) (s : StateLocal) : CoverInv (ks.setState p s) where
  cover k := (owners_setState p s k).trans (h.cover k)
  nonempty q hq hc := by simpa using h.nonempty q hq (by simpa using hc)

theorem eraseIdx (h : CoverInv ks) {i : Nat} (hi : i < ks.ranges.length)
    (hc : (ks.heap ks.ranges[i]).children ≠ []) :
    CoverInv { ks with ranges := ks.ranges.eraseIdx i } where
  cover k := by
    rw [← h.cover k]
    exact countP_eraseIdx_of_false (ownsKey ks k) _ i hi (by simp [ownsKey, hc])
  nonempty q hq := h.nonempty q (List.mem_of_mem_eraseIdx hq)

theorem splitChildren {base : Nat} (ha : Arena base ks) (h : CoverInv ks) {r : Nat}
    (hr : r ∈ ks.ranges) (hc : (ks.heap r).children = []) {k : Key} (hk : k ≠ ZeroKey)
    (hin : (ks.heap r).meta.contains k = true) (hs : k ≠ (ks.heap r).meta.start) :
    CoverInv (ks.splitChildren r k) where
  cover x := by
    have hrl := ha.ranges_lt r hr
    have agree := countP_add_of_agree ha.nodup hr (ownsKey ks x)
      (ownsKey (ks.splitChildren r k) x) fun q hq hne => by
        have := ha.ranges_lt q hq
        simp only [ownsKey, splitChildren_heap hrl]
        rw [if_neg (by omega), if_neg (by omega), if_neg hne]
    have hr' : ownsKey (ks.splitChildren r k) x r = false := by
      simp [ownsKey, splitChildren_heap hrl, Nat.ne_of_lt hrl, Nat.ne_of_lt (Nat.lt_succ_of_lt hrl)]
    have hone : ownsKey (ks.splitChildren r k) x ks.size =
        containsKey (ks.heap r).meta.start k x := by
      simp [ownsKey, splitChildren_heap hrl, Meta.contains]
    have htwo : ownsKey (ks.splitChildren r k) x (ks.size + 1) =
        containsKey k (ks.heap r).meta.end x := by
      simp [ownsKey, splitChildren_heap hrl, Meta.contains]
    have hcount := containsKey_split_count hk hin x
    have hown := h.cover x
    simp only [owners] at hown ⊢
    rw [splitChildren_ranges, List.countP_append, List.countP_cons, List.countP_cons,
      List.countP_nil, hone, htwo]
    rw [hr', show ownsKey ks x r = containsKey (ks.heap r).meta.start (ks.heap r).meta.end x by
      simp [ownsKey, hc, Meta.contains]] at agree
    simp only [Bool.false_eq_true, if_false] at agree
    omega
  nonempty q hq hq' := by
    have hrl := ha.ranges_lt r hr
    rw [splitChildren_ranges, List.mem_append, List.mem_pair] at hq
    rw [splitChildren_heap hrl] at hq' ⊢
    rcases hq with hq | rfl | rfl
    · have := ha.ranges_lt q hq
      rw [if_neg (by omega), if_neg (by omega)] at hq' ⊢
      by_cases e : q = r
      · subst e; simp at hq'
      · rw [if_neg e] at hq' ⊢; exact h.nonempty q hq hq'
    · rw [if_pos rfl]
      refine exists_containsKey_iff.2 ?_
      obtain ⟨hs' | hs', -⟩ := containsKey_iff.1 hin
      · exact .inl hs'
      · exact .inr (.inr (lt_of_le_of_ne hs' (Ne.symm hs)))
    · rw [if_neg (Nat.succ_ne_self _), if_pos rfl]
      refine exists_containsKey_iff.2 ?_
      obtain ⟨-, he | he⟩ := containsKey_iff.1 hin
      · exact .inr (.inl he)
      · exact .inr (.inr he)

/-- Two childless, non-empty ranges of `ranges` meeting at a key other than `ZeroKey` are
distinct. -/
theorem ne_of_meet (h : CoverInv ks) {one two : Nat} (h₁ : one ∈ ks.ranges)
    (c₁ : (ks.heap one).children = []) (hadj : (ks.heap one).meta.end = (ks.heap two).meta.start)
    (hm : (ks.heap one).meta.end ≠ ZeroKey) : one ≠ two := by
  rintro rfl
  rcases exists_containsKey_iff.1 (h.nonempty one h₁ c₁) with h0 | h0 | h0
  · exact hm (hadj.trans h0)
  · exact hm h0
  · exact lt_irrefl _ (hadj ▸ h0)

/-- Two childless ranges of `ranges` meeting at a key other than `ZeroKey` glue to an interval
that holds the meeting key. -/
theorem meet_glue (h : CoverInv ks) {one two : Nat} (h₁ : one ∈ ks.ranges)
    (h₂ : two ∈ ks.ranges) (c₁ : (ks.heap one).children = []) (c₂ : (ks.heap two).children = [])
    (hadj : (ks.heap one).meta.end = (ks.heap two).meta.start)
    (hm : (ks.heap one).meta.end ≠ ZeroKey) :
    containsKey (ks.heap one).meta.start (ks.heap two).meta.end (ks.heap one).meta.end = true :=
  containsKey_glue hm (h.nonempty one h₁ c₁) (by rw [hadj]; exact h.nonempty two h₂ c₂)

theorem joinChild {base : Nat} (ha : Arena base ks) (h : CoverInv ks) {one two : Nat}
    (h₁ : one ∈ ks.ranges) (h₂ : two ∈ ks.ranges) (c₁ : (ks.heap one).children = [])
    (c₂ : (ks.heap two).children = []) (hadj : (ks.heap one).meta.end = (ks.heap two).meta.start)
    (hm : (ks.heap one).meta.end ≠ ZeroKey) : CoverInv (ks.joinChild one two) where
  cover x := by
    have l₁ := ha.ranges_lt one h₁
    have l₂ := ha.ranges_lt two h₂
    have hne := h.ne_of_meet h₁ c₁ hadj hm
    have A := countP_add_of_agree ha.nodup h₁ (ownsKey ks x)
      (fun q => if q = one then false else ownsKey ks x q) fun q _ hq => by simp [hq]
    have B := countP_add_of_agree ha.nodup h₂ (fun q => if q = one then false else ownsKey ks x q)
      (ownsKey (ks.joinChild one two) x) fun q hq hq₂ => by
        have := ha.ranges_lt q hq
        by_cases hq₁ : q = one
        · subst hq₁; simp [ownsKey, joinChild_heap l₁ l₂, Nat.ne_of_lt this]
        · simp [ownsKey, joinChild_heap l₁ l₂, hq₁, hq₂, Nat.ne_of_lt this]
    have hthree : ownsKey (ks.joinChild one two) x ks.size =
        containsKey (ks.heap one).meta.start (ks.heap two).meta.end x := by
      simp [ownsKey, joinChild_heap l₁ l₂, Meta.contains]
    have hown₁ : ownsKey ks x one = containsKey (ks.heap one).meta.start (ks.heap one).meta.end x := by
      simp [ownsKey, c₁, Meta.contains]
    have hown₂ : ownsKey ks x two = containsKey (ks.heap one).meta.end (ks.heap two).meta.end x := by
      simp [ownsKey, c₂, Meta.contains, hadj]
    have hcount := containsKey_split_count hm (h.meet_glue h₁ h₂ c₁ c₂ hadj hm) x
    have hown := h.cover x
    simp only [owners] at hown ⊢
    rw [joinChild_ranges, List.countP_append, List.countP_cons, List.countP_nil, hthree]
    simp only [if_pos rfl, if_neg (Ne.symm hne), Bool.false_eq_true, ↓reduceIte,
      show ownsKey (ks.joinChild one two) x two = false by
        simp [ownsKey, joinChild_heap l₁ l₂, Nat.ne_of_lt l₂],
      hown₁, hown₂] at A B ⊢
    omega
  nonempty q hq hq' := by
    have l₁ := ha.ranges_lt one h₁
    have l₂ := ha.ranges_lt two h₂
    rw [joinChild_ranges, List.mem_append, List.mem_singleton] at hq
    rw [joinChild_heap l₁ l₂] at hq' ⊢
    rcases hq with hq | rfl
    · have := ha.ranges_lt q hq
      rw [if_neg (by omega)] at hq' ⊢
      by_cases e : q = one ∨ q = two
      · rw [if_pos e] at hq'; simp at hq'
      · rw [if_neg e] at hq' ⊢; exact h.nonempty q hq hq'
    · rw [if_pos rfl]
      exact ⟨_, h.meet_glue h₁ h₂ c₁ c₂ hadj hm⟩

end CoverInv

/-! ## The constructors -/

theorem coverInv_new : CoverInv new where
  cover k := by
    have : new.heap 0 = ⟨⟨⟨[], 1⟩, ZeroKey, ZeroKey⟩, .pending, [], []⟩ := rfl
    simp [owners, ownsKey, this, Meta.contains, show new.ranges = [0] from rfl]
  nonempty p hp _ := by
    obtain rfl : p = 0 := List.mem_singleton.1 hp
    exact ⟨ZeroKey, by decide⟩

/-- One gap `[s, e)` after the keys below `s`: the keys below `e`. -/
theorem below_add_containsKey {s e x : Key} (he : e ≠ ZeroKey) (hse : s < e) :
    ((if s ≠ ZeroKey ∧ x < s then 1 else 0) + if containsKey s e x then 1 else 0) =
      if e ≠ ZeroKey ∧ x < e then 1 else 0 := by
  by_cases hs : s = ZeroKey
  · by_cases hx : x < e <;> simp [hs, he, hx]
  · by_cases hx : x < s
    · simp [hs, he, hx, not_le_of_lt hx, lt_trans hx hse]
    · simp [hs, he, hx, le_of_not_lt hx]

/-- The last gap `[s, +∞)` after the keys below `s`: every key. -/
theorem below_add_containsKey_last (s x : Key) :
    ((if s ≠ ZeroKey ∧ x < s then 1 else 0) + if containsKey s ZeroKey x then 1 else 0) = 1 := by
  by_cases hs : s = ZeroKey
  · simp [hs]
  · by_cases hx : x < s
    · simp [hs, hx, not_le_of_lt hx]
    · simp [hs, hx, le_of_not_lt hx]

theorem pushBounds_heap_lt (ks : Keyspace) (s e : Key) {p : Nat} (hp : p < ks.size) :
    (ks.range.2.modify ks.size fun x => { x with meta.start := s, meta.end := e }).heap p =
      ks.heap p := by
  simp [Nat.ne_of_lt hp]

theorem pushBounds_heap_new (ks : Keyspace) (s e : Key) :
    (ks.range.2.modify ks.size fun x => { x with meta.start := s, meta.end := e }).heap ks.size =
      ⟨⟨⟨[], ks.nextIdent⟩, s, e⟩, .unknown, [], []⟩ := by
  simp [Range.ofIdent]

/-- One gap `[s, e)` pushed after the ranges `rs` of the loop: every range stays below the size,
childless and non-empty, and a key gains an owner exactly when the gap contains it. -/
theorem pushBounds_loop {ks : Keyspace} {rs : List Nat} {s e : Key} (hlt : ∀ p ∈ rs, p < ks.size)
    (hne : ∀ p ∈ rs, (ks.heap p).children = [] ∧ ∃ k, (ks.heap p).meta.contains k = true)
    (he : ∃ k, containsKey s e k = true) :
    (∀ p ∈ rs ++ [ks.size],
      p < (ks.range.2.modify ks.size fun x => { x with meta.start := s, meta.end := e }).size) ∧
    (∀ p ∈ rs ++ [ks.size],
      ((ks.range.2.modify ks.size fun x => { x with meta.start := s, meta.end := e }).heap p).children
        = [] ∧ ∃ k, ((ks.range.2.modify ks.size fun x =>
          { x with meta.start := s, meta.end := e }).heap p).meta.contains k = true) ∧
    ∀ x, (rs ++ [ks.size]).countP
        (ownsKey (ks.range.2.modify ks.size fun x => { x with meta.start := s, meta.end := e }) x) =
      rs.countP (ownsKey ks x) + if containsKey s e x then 1 else 0 := by
  refine ⟨?_, ?_, fun x => ?_⟩
  · simp only [List.mem_append, List.mem_singleton, modify_size, range_size]
    rintro p (hp | rfl)
    · exact Nat.lt_succ_of_lt (hlt p hp)
    · exact Nat.lt_succ_self _
  · simp only [List.mem_append, List.mem_singleton]
    rintro p (hp | rfl)
    · rw [pushBounds_heap_lt ks s e (hlt p hp)]; exact hne p hp
    · rw [pushBounds_heap_new]; exact ⟨rfl, he⟩
  · have hsame : rs.countP (ownsKey (ks.range.2.modify ks.size fun r =>
        { r with meta.start := s, meta.end := e }) x) = rs.countP (ownsKey ks x) :=
      List.countP_congr fun p hp => by simp only [ownsKey, pushBounds_heap_lt ks s e (hlt p hp)]
    simp only [List.countP_append, hsame, List.countP_cons, List.countP_nil, ownsKey,
      pushBounds_heap_new, Meta.contains, List.isEmpty_nil, Bool.true_and, Nat.zero_add]

/-- The loop of `NewWithSplits` from the start `s` of the next gap, the ranges `rs` made so far
holding exactly the keys below `s` (none when `s` is `ZeroKey`). -/
theorem coverInv_newWithSplitsLoop :
    ∀ (splits : List Key) (ks : Keyspace) (rs : List Nat) (s : Key),
      List.Chain (· < ·) s splits → (∀ e ∈ splits, e ≠ ZeroKey) → (∀ p ∈ rs, p < ks.size) →
      (∀ p ∈ rs, (ks.heap p).children = [] ∧ ∃ k, (ks.heap p).meta.contains k = true) →
      (∀ x, rs.countP (ownsKey ks x) = if s ≠ ZeroKey ∧ x < s then 1 else 0) →
      CoverInv (newWithSplitsLoop ks rs s splits)
  | [], ks, rs, s, _, _, hlt, hne, hcount => by
    obtain ⟨-, hne', hcount'⟩ :=
      pushBounds_loop hlt hne (exists_containsKey_iff.2 (.inr (.inl rfl)))
    refine ⟨fun x => (hcount' x).trans ?_, fun p hp _ => (hne' p hp).2⟩
    rw [hcount]
    exact below_add_containsKey_last s x
  | e :: splits, ks, rs, s, hc, hz, hlt, hne, hcount => by
    obtain ⟨hse, hc⟩ := List.chain_cons.1 hc
    obtain ⟨hlt', hne', hcount'⟩ := pushBounds_loop hlt hne (exists_containsKey_iff.2 (.inr (.inr hse)))
    refine coverInv_newWithSplitsLoop splits _ _ e hc (fun e' h' => hz e' (List.mem_cons_of_mem _ h'))
      hlt' hne' fun x => (hcount' x).trans ?_
    rw [hcount]
    exact below_add_containsKey (hz e (List.mem_cons_self _ _)) hse

theorem coverInv_newWithSplits {splits : List Key} (hc : splits.Chain' (· < ·))
    (hz : ∀ e ∈ splits, e ≠ ZeroKey) : CoverInv (newWithSplits splits) := by
  refine coverInv_newWithSplitsLoop splits _ [] ZeroKey ?_ hz (by simp) (by simp) (by simp)
  cases splits with
  | nil => exact .nil
  | cons e rest => exact .cons (zeroKey_lt (hz e (List.mem_cons_self _ _))) hc

/-! ## Runs -/

/-- A catalog call on ranges of `ranges`, or a change of a range's state, where a `JoinTwo`'s
first range does not end at `ZeroKey`. -/
inductive CatalogStep (toState : Range → StateLocal → Bool) : Keyspace → Keyspace → Prop
  | doSplit {ks : Keyspace} (r : Nat) (k : Key) :
      r ∈ ks.ranges → CatalogStep toState ks (ks.doSplit toState r k).2
  | joinTwo {ks : Keyspace} (one two : Nat) : one ∈ ks.ranges → two ∈ ks.ranges →
      (ks.heap one).meta.end ≠ ZeroKey → CatalogStep toState ks (ks.joinTwo toState one two).2
  | discard {ks : Keyspace} (r : Nat) : r ∈ ks.ranges → CatalogStep toState ks (ks.discard r).2
  | setState {ks : Keyspace} (p : Nat) (s : StateLocal) :
      p ∈ ks.ranges → CatalogStep toState ks (ks.setState p s)

section Runs

variable {toState : Range → StateLocal → Bool} {base : Nat} {ks ks' : Keyspace}

theorem CatalogStep.step (ha : Arena base ks) (hs : CatalogStep toState ks ks') :
    Step toState ks ks' := by
  cases hs with
  | doSplit r k hr => exact .doSplit r k (ha.ranges_lt r hr)
  | joinTwo one two h₁ h₂ _ => exact .joinTwo one two (ha.ranges_lt _ h₁) (ha.ranges_lt _ h₂)
  | discard r hr => exact .discard r (ha.ranges_lt r hr)
  | setState p s hp => exact .setState p s (ha.ranges_lt p hp)

theorem CoverInv.step (ha : Arena base ks) (h : CoverInv ks) (hs : CatalogStep toState ks ks') :
    CoverInv ks' := by
  cases hs with
  | doSplit r k hr =>
    rcases @doSplit_cases toState ks r k with ⟨-, e⟩ | ⟨-, ok, e⟩
    · rwa [e]
    · rw [e]
      exact (h.setState r _).splitChildren (ha.setState r _) hr (by simpa using ok.childless)
        ok.key_ne (by simpa using ok.contains) (by simpa using ok.ne_start)
  | joinTwo one two h₁ h₂ hm =>
    rcases @joinTwo_cases toState ks one two with ⟨-, e⟩ | ⟨-, e, -⟩ | ⟨-, ok, e⟩
    · rwa [e]
    · rw [e]; exact h.setState one _
    · rw [e]
      exact ((h.setState one _).setState two _).joinChild ((ha.setState one _).setState two _)
        h₁ h₂ (by simpa using ok.childless_one) (by simpa using ok.childless_two)
        (by simpa using ok.adjacent) (by simpa using hm)
  | discard r hr =>
    rcases discard_cases ks r with ⟨-, e⟩ | ⟨-, -, hc, i, hi, hri, e⟩
    · rwa [e]
    · rw [e]; exact h.eraseIdx hi (hri ▸ hc)
  | setState p s _ => exact h.setState p s

/-- The arena and the cover invariant hold along every run of catalog calls. -/
theorem CatalogStep.reach (ha : Arena base ks) (h : CoverInv ks)
    (hr : Relation.ReflTransGen (CatalogStep toState) ks ks') : Arena base ks' ∧ CoverInv ks' := by
  induction hr with
  | refl => exact ⟨ha, h⟩
  | tail _ hs ih => exact ⟨ih.1.step (hs.step ih.1), ih.2.step ih.1 hs⟩

theorem CoverInv.reach (ha : Arena base ks) (h : CoverInv ks)
    (hr : Relation.ReflTransGen (CatalogStep toState) ks ks') : CoverInv ks' :=
  (CatalogStep.reach ha h hr).2

end Runs

/-- Every key has exactly one owner in every keyspace reachable from `New()`, or from
`NewWithSplits(s)` for a strictly increasing `s` of keys other than `ZeroKey`, by catalog calls and
changes of state that never join two ranges across the `ZeroKey` boundary. -/
theorem cover_reachable (toState : Range → StateLocal → Bool) :
    (∀ ks, Relation.ReflTransGen (CatalogStep toState) new ks → ∀ k, owners ks k = 1) ∧
    (∀ splits, splits.Chain' (· < ·) → (∀ e ∈ splits, e ≠ ZeroKey) →
      ∀ ks, Relation.ReflTransGen (CatalogStep toState) (newWithSplits splits) ks →
        ∀ k, owners ks k = 1) :=
  ⟨fun _ hr => (coverInv_new.reach arena_new hr).cover,
   fun splits hc hz _ hr => ((coverInv_newWithSplits hc hz).reach (arena_newWithSplits splits) hr).cover⟩

/-- The runs to `splitRejoined` and to `rejoinedSplits` keep one owner for every key. -/
theorem cover_reachable_split_rejoined :
    Relation.ReflTransGen (CatalogStep fun _ _ => true) new splitRejoined ∧
    Relation.ReflTransGen (CatalogStep fun _ _ => true) (newWithSplits [[109]]) rejoinedSplits ∧
    (∀ k, owners splitRejoined k = 1) ∧ ∀ k, owners rejoinedSplits k = 1 :=
  have h₁ : Relation.ReflTransGen (CatalogStep fun _ _ => true) new splitRejoined :=
    .tail (.tail (.tail (.tail (.tail (.tail (.single
      (.setState 0 .ready (by decide))) (.doSplit 0 [109] (by decide)))
      (.setState 1 .ready (by decide))) (.setState 2 .ready (by decide)))
      (.setState 0 .obsolete (by decide))) (.discard 0 (by decide)))
      (.joinTwo 1 2 (by decide) (by decide) (by decide))
  have h₂ : Relation.ReflTransGen (CatalogStep fun _ _ => true) (newWithSplits [[109]])
      rejoinedSplits :=
    .tail (.tail (.single (.setState 0 .ready (by decide))) (.setState 1 .ready (by decide)))
      (.joinTwo 0 1 (by decide) (by decide) (by decide))
  ⟨h₁, h₂, (cover_reachable fun _ _ => true).1 _ h₁,
    (cover_reachable fun _ _ => true).2 [[109]] (List.chain'_singleton _) (by decide) _ h₂⟩

end Ranger.Keyspace
