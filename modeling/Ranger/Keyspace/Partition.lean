/-
What `DoSplit` and `JoinTwo` do to the keys of the ranges they touch. A successful split of a range
gives it two children, each holding some key, that partition its keys (`doSplit_partitions`). A
successful join of two ranges that meet at a key other than `ZeroKey` gives a range holding exactly
the keys of the two (`joinTwo_union_reachable`, in every keyspace reachable from `NewWithSplits`).
`JoinTwo`'s adjacency test also accepts a first range ending at `ZeroKey` (+∞) and a second starting
at `ZeroKey` (-∞); the joined range then holds neither's keys (`joinTwo_zeroKey_not_union`).

No call changes the bounds of a range once allocated (`reach_meta_eq`), so joining undoes a split:
at any later point of any run, a successful `JoinTwo` of the two ranges a `DoSplit(r, k)` allocated
gives a range holding exactly the keys of `r` (`doSplit_joinTwo_keys`).
-/
import Ranger.Keyspace.Cover

namespace Ranger.Keyspace

/-! ## Splitting -/

/-- Splitting `[a, b)` at a key `m` it holds, other than `ZeroKey`, puts every key of it in exactly
one of `[a, m)` and `[m, b)`. -/
theorem containsKey_split_xor {a b m : Key} (hm : m ≠ ZeroKey) (hin : containsKey a b m = true)
    (x : Key) :
    containsKey a b x = true ↔ Xor' (containsKey a m x = true) (containsKey m b x = true) := by
  have hd := containsKey_split_disjoint (a := a) (b := b) hm x
  rw [containsKey_split hm hin]; unfold Xor'
  tauto

/-- Range `r` has the two children `one` and `two`, each holding some key, and every key of `r` is
in exactly one of them. -/
structure Partitioned (ks : Keyspace) (r one two : Nat) : Prop where
  children : (ks.heap r).children = [one, two]
  nonempty_one : ∃ x, (ks.heap one).meta.contains x = true
  nonempty_two : ∃ x, (ks.heap two).meta.contains x = true
  partition : ∀ x, (ks.heap r).meta.contains x = true ↔
    Xor' ((ks.heap one).meta.contains x = true) ((ks.heap two).meta.contains x = true)

/-- A successful `DoSplit(r, k)` of a range of the keyspace (a pointer it allocated) partitions
`r` between its two new children. -/
theorem doSplit_partitions (toState : Range → StateLocal → Bool) (ks : Keyspace) {r : Nat}
    (hr : r < ks.size) (k : Key) (h : (ks.doSplit toState r k).1 = none) :
    ∃ one two, Partitioned (ks.doSplit toState r k).2 r one two := by
  rcases @doSplit_cases toState ks r k with ⟨hs, -⟩ | ⟨-, ok, e⟩
  · simp [h] at hs
  have hr' : r < (ks.setState r .splitting).size := hr
  have hne : r ≠ ks.size ∧ r ≠ ks.size + 1 := by omega
  have hk := containsKey_iff.1 ok.contains
  rw [e]
  refine ⟨ks.size, ks.size + 1, ⟨?children, ?one, ?two, fun x => ?partition⟩⟩ <;>
    simp only [splitChildren_heap hr', setState_size, setState_heap_meta, Meta.contains, if_pos,
      if_neg hne.1, if_neg hne.2, if_neg (Nat.succ_ne_self _)]
  case one =>
    refine exists_containsKey_iff.2 (hk.1.imp_right fun hle => .inr ?_)
    exact lt_of_le_of_ne hle (Ne.symm ok.ne_start)
  case two => exact ⟨k, containsKey_iff.2 ⟨.inr le_rfl, hk.2⟩⟩
  case partition => exact containsKey_split_xor ok.key_ne ok.contains x

theorem doSplit_partitions_new :
    0 < (new.setState 0 .ready).size ∧
    ((new.setState 0 .ready).doSplit (fun _ _ => true) 0 [109]).1 = none ∧
    ∃ one two,
      Partitioned ((new.setState 0 .ready).doSplit (fun _ _ => true) 0 [109]).2 0 one two :=
  ⟨by decide, by decide, doSplit_partitions _ _ (by decide) _ (by decide)⟩

/-! ## Joining -/

/-- A successful `JoinTwo(one, two)` of two allocated ranges, each holding some key, that meet at
a key other than `ZeroKey`, gives a range holding exactly the keys of the two. -/
theorem joinTwo_union (toState : Range → StateLocal → Bool) {ks : Keyspace} {one two three : Nat}
    (h₁ : one < ks.size) (h₂ : two < ks.size) (hm : (ks.heap one).meta.end ≠ ZeroKey)
    (n₁ : ∃ x, (ks.heap one).meta.contains x = true)
    (n₂ : ∃ x, (ks.heap two).meta.contains x = true)
    (h : (ks.joinTwo toState one two).1 = .ok three) (x : Key) :
    ((ks.joinTwo toState one two).2.heap three).meta.contains x = true ↔
      (ks.heap one).meta.contains x = true ∨ (ks.heap two).meta.contains x = true := by
  rcases @joinTwo_cases toState ks one two with ⟨⟨_, he⟩, -⟩ | ⟨⟨_, he⟩, -⟩ | ⟨hs, ok, e⟩
  · rw [he] at h; cases h
  · rw [he] at h; cases h
  rw [hs] at h
  cases h
  have n₂' : ∃ y, containsKey (ks.heap one).meta.end (ks.heap two).meta.end y = true := by
    rw [ok.adjacent]; exact n₂
  rw [e, @joinChild_heap ((ks.setState one .joining).setState two .joining) one two h₁ h₂]
  simpa only [setState_size, if_true, Meta.contains, setState_heap_meta, ok.adjacent] using
    containsKey_split hm (containsKey_glue hm n₁ n₂') x

/-- In every keyspace reachable from `NewWithSplits(s)`, for a strictly increasing `s` of keys
other than `ZeroKey`, by catalog calls that never join across `ZeroKey`, a successful `JoinTwo` of
two ranges of `ranges` meeting at a key other than `ZeroKey` gives exactly the keys of the two. -/
theorem joinTwo_union_reachable (toState : Range → StateLocal → Bool) {splits : List Key}
    (hc : splits.Chain' (· < ·)) (hz : ∀ e ∈ splits, e ≠ ZeroKey) {ks : Keyspace}
    (hr : Relation.ReflTransGen (CatalogStep toState) (newWithSplits splits) ks)
    {one two three : Nat} (h₁ : one ∈ ks.ranges) (h₂ : two ∈ ks.ranges)
    (hm : (ks.heap one).meta.end ≠ ZeroKey) (h : (ks.joinTwo toState one two).1 = .ok three)
    (x : Key) :
    ((ks.joinTwo toState one two).2.heap three).meta.contains x = true ↔
      (ks.heap one).meta.contains x = true ∨ (ks.heap two).meta.contains x = true := by
  obtain ⟨ha, hinv⟩ :=
    CatalogStep.reach (arena_newWithSplits splits) (coverInv_newWithSplits hc hz) hr
  rcases @joinTwo_cases toState ks one two with ⟨⟨_, he⟩, -⟩ | ⟨⟨_, he⟩, -⟩ | ⟨-, ok, -⟩
  · rw [he] at h; cases h
  · rw [he] at h; cases h
  exact joinTwo_union toState (ha.ranges_lt _ h₁) (ha.ranges_lt _ h₂) hm
    (hinv.nonempty _ h₁ ok.childless_one) (hinv.nonempty _ h₂ ok.childless_two) h x

theorem joinTwo_union_reachable_splits :
    [[109]].Chain' (· < ·) ∧ (∀ e ∈ [[109]], e ≠ ZeroKey) ∧
    Relation.ReflTransGen (CatalogStep fun _ _ => true) (newWithSplits [[109]])
      (((newWithSplits [[109]]).setState 0 .ready).setState 1 .ready) ∧
    0 ∈ (((newWithSplits [[109]]).setState 0 .ready).setState 1 .ready).ranges ∧
    1 ∈ (((newWithSplits [[109]]).setState 0 .ready).setState 1 .ready).ranges ∧
    ((((newWithSplits [[109]]).setState 0 .ready).setState 1 .ready).heap 0).meta.end ≠ ZeroKey ∧
    ((((newWithSplits [[109]]).setState 0 .ready).setState 1 .ready).joinTwo
      (fun _ _ => true) 0 1).1 = .ok 2 ∧
    ((((((newWithSplits [[109]]).setState 0 .ready).setState 1 .ready).joinTwo
      (fun _ _ => true) 0 1).2.heap 2).meta.contains [97] = true ↔
      ((((newWithSplits [[109]]).setState 0 .ready).setState 1 .ready).heap 0).meta.contains [97] =
        true ∨
      ((((newWithSplits [[109]]).setState 0 .ready).setState 1 .ready).heap 1).meta.contains [97] =
        true) := by
  have hr : Relation.ReflTransGen (CatalogStep fun _ _ => true) (newWithSplits [[109]])
      (((newWithSplits [[109]]).setState 0 .ready).setState 1 .ready) :=
    .tail (.tail .refl (.setState 0 .ready (by decide))) (.setState 1 .ready (by decide))
  have hm : ((((newWithSplits [[109]]).setState 0 .ready).setState 1 .ready).heap 0).meta.end ≠
      ZeroKey := by decide
  have hj : ((((newWithSplits [[109]]).setState 0 .ready).setState 1 .ready).joinTwo
      (fun _ _ => true) 0 1).1 = .ok 2 := by decide
  exact ⟨List.chain'_singleton _, by decide, hr, by decide, by decide, hm, hj,
    joinTwo_union_reachable _ (List.chain'_singleton _) (by decide) hr (by decide) (by decide) hm hj
      [97]⟩

/-- `NewWithSplits([m])` gives range 0 = `[ZeroKey, m)` and range 1 = `[m, ZeroKey)`. With both
`Ready`, `JoinTwo(range 1, range 0)` passes the adjacency test on `ZeroKey` and succeeds; the joined
range 2 = `[m, m)` does not hold `[97]`, which range 0 holds. -/
theorem joinTwo_zeroKey_not_union :
    ((((newWithSplits [[109]]).setState 0 .ready).setState 1 .ready).joinTwo
      (fun _ _ => true) 1 0).1 = .ok 2 ∧
    ((((newWithSplits [[109]]).setState 0 .ready).setState 1 .ready).heap 0).meta.contains [97] =
      true ∧
    (((((newWithSplits [[109]]).setState 0 .ready).setState 1 .ready).joinTwo
      (fun _ _ => true) 1 0).2.heap 2).meta.contains [97] = false := by
  decide

/-! ## Joining what was split -/

section Runs

variable {toState : Range → StateLocal → Bool} {ks ks' : Keyspace}

/-- A call never frees a range nor changes the bounds of one already allocated. -/
theorem Step.meta_eq (hs : Step toState ks ks') :
    ks.size ≤ ks'.size ∧ ∀ p < ks.size, (ks'.heap p).meta = (ks.heap p).meta := by
  cases hs with
  | doSplit r k hr =>
    rcases @doSplit_cases toState ks r k with ⟨-, e⟩ | ⟨-, -, e⟩ <;> rw [e]
    · exact ⟨le_rfl, fun _ _ => rfl⟩
    · refine ⟨by simp, fun p hp => ?_⟩
      rw [splitChildren_heap (by simpa using hr)]
      have h₁ : p ≠ ks.size := Nat.ne_of_lt hp
      have h₂ : p ≠ ks.size + 1 := by omega
      by_cases hpr : p = r
      · subst hpr; simp [h₁, h₂]
      · simp [hpr, h₁, h₂]
  | joinTwo one two h₁ h₂ =>
    rcases @joinTwo_cases toState ks one two with ⟨-, e⟩ | ⟨-, e, -⟩ | ⟨-, -, e⟩ <;> rw [e]
    · exact ⟨le_rfl, fun _ _ => rfl⟩
    · exact ⟨le_rfl, fun p _ => setState_heap_meta _ _ _ _⟩
    · refine ⟨by simp, fun p hp => ?_⟩
      rw [joinChild_heap (by simpa using h₁) (by simpa using h₂)]
      split_ifs <;> simp_all
  | discard r _ =>
    rcases discard_cases ks r with ⟨-, e⟩ | ⟨-, -, -, i, -, -, e⟩ <;> rw [e]
    · exact ⟨le_rfl, fun _ _ => rfl⟩
    · exact ⟨le_rfl, fun _ _ => rfl⟩
  | range => exact ⟨by simp, fun p hp => by simp [Nat.ne_of_lt hp]⟩
  | setState p s _ => exact ⟨le_rfl, fun q _ => setState_heap_meta _ _ _ _⟩

/-- Along every run, no range is freed and the bounds of every allocated range stay. -/
theorem reach_meta_eq (hr : Relation.ReflTransGen (Step toState) ks ks') :
    ks.size ≤ ks'.size ∧ ∀ p < ks.size, (ks'.heap p).meta = (ks.heap p).meta := by
  induction hr with
  | refl => exact ⟨le_rfl, fun _ _ => rfl⟩
  | tail _ hs ih =>
    obtain ⟨hle, hm⟩ := hs.meta_eq
    exact ⟨ih.1.trans hle, fun p hp => (hm p (lt_of_lt_of_le hp ih.1)).trans (ih.2 p hp)⟩

end Runs

/-- In every run from a successful `DoSplit(r, k)`, a successful `JoinTwo` of the two ranges it
allocated gives a range holding exactly the keys `r` held. -/
theorem doSplit_joinTwo_keys (toState : Range → StateLocal → Bool) {ks ks' : Keyspace} {r : Nat}
    (hr : r < ks.size) {k : Key} (hs : (ks.doSplit toState r k).1 = none)
    (hrun : Relation.ReflTransGen (Step toState) (ks.doSplit toState r k).2 ks')
    {three : Nat} (hj : (ks'.joinTwo toState ks.size (ks.size + 1)).1 = .ok three) (x : Key) :
    ((ks'.joinTwo toState ks.size (ks.size + 1)).2.heap three).meta.contains x =
      (ks.heap r).meta.contains x := by
  rcases @doSplit_cases toState ks r k with ⟨hs', -⟩ | ⟨-, ok, e⟩
  · simp [hs] at hs'
  rw [e] at hrun
  obtain ⟨hsize, hmeta⟩ := reach_meta_eq hrun
  simp only [splitChildren_size, setState_size] at hsize hmeta
  have hr' : r < (ks.setState r .splitting).size := hr
  have m₁ : (ks'.heap ks.size).meta = ⟨⟨[], ks.nextIdent⟩, (ks.heap r).meta.start, k⟩ := by
    rw [hmeta _ (by omega), splitChildren_heap hr']; simp
  have m₂ : (ks'.heap (ks.size + 1)).meta = ⟨⟨[], ks.nextIdent + 1⟩, k, (ks.heap r).meta.end⟩ := by
    rw [hmeta _ (by omega), splitChildren_heap hr']; simp
  have hk := containsKey_iff.1 ok.contains
  have n₁ : ∃ y, (ks'.heap ks.size).meta.contains y = true := by
    rw [m₁]
    exact exists_containsKey_iff.2 (hk.1.imp_right fun hle => .inr (lt_of_le_of_ne hle (Ne.symm ok.ne_start)))
  have n₂ : ∃ y, (ks'.heap (ks.size + 1)).meta.contains y = true :=
    ⟨k, by rw [m₂]; exact containsKey_iff.2 ⟨.inr le_rfl, hk.2⟩⟩
  refine Bool.eq_iff_iff.2 ((joinTwo_union toState (by omega) (by omega)
    (by rw [m₁]; exact ok.key_ne) n₁ n₂ hj x).trans ?_)
  simp only [Meta.contains, m₁, m₂]
  exact (containsKey_split ok.key_ne ok.contains x).symm

/-- `New()`'s range, `Ready`, split at `[109]`; both children made `Ready`, then joined. -/
theorem doSplit_joinTwo_keys_new :
    0 < (new.setState 0 .ready).size ∧
    ((new.setState 0 .ready).doSplit (fun _ _ => true) 0 [109]).1 = none ∧
    Relation.ReflTransGen (Step fun _ _ => true)
      ((new.setState 0 .ready).doSplit (fun _ _ => true) 0 [109]).2
      ((((new.setState 0 .ready).doSplit (fun _ _ => true) 0 [109]).2.setState 1 .ready).setState
        2 .ready) ∧
    (((((new.setState 0 .ready).doSplit (fun _ _ => true) 0 [109]).2.setState 1 .ready).setState
      2 .ready).joinTwo (fun _ _ => true) 1 2).1 = .ok 3 ∧
    ((((((new.setState 0 .ready).doSplit (fun _ _ => true) 0 [109]).2.setState 1 .ready).setState
      2 .ready).joinTwo (fun _ _ => true) 1 2).2.heap 3).meta.contains [97] =
      ((new.setState 0 .ready).heap 0).meta.contains [97] := by
  have hrun : Relation.ReflTransGen (Step fun _ _ => true)
      ((new.setState 0 .ready).doSplit (fun _ _ => true) 0 [109]).2
      ((((new.setState 0 .ready).doSplit (fun _ _ => true) 0 [109]).2.setState 1 .ready).setState
        2 .ready) :=
    .tail (.tail .refl (.setState 1 .ready (by decide))) (.setState 2 .ready (by decide))
  have hj : (((((new.setState 0 .ready).doSplit (fun _ _ => true) 0 [109]).2.setState 1
      .ready).setState 2 .ready).joinTwo (fun _ _ => true) 1 2).1 = .ok 3 := by decide
  exact ⟨by decide, by decide, hrun, hj,
    doSplit_joinTwo_keys _ (by decide) (by decide) hrun hj [97]⟩

end Ranger.Keyspace
