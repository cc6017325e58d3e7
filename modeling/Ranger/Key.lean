/-
Keys and key intervals. Go's `string` and `[]byte` are byte strings, ordered byte by byte by
`bytes.Compare` and by `<` on strings. `ZeroKey` is the sentinel that stands for -∞ as a start and
for +∞ as an end; `containsKey` is the test of the kv node's `RangeMeta.Contains`, which the
keyspace's ranges share. The split law at the end is what cutting an interval at an inner key,
and gluing two adjacent non-empty intervals, rest on.
-/
import Mathlib.Data.List.Lex
import Mathlib.Data.UInt

namespace Ranger

/-- Go's `string` and `[]byte`: a byte string. -/
abbrev Bytes := List UInt8

/-- Bytes ordered by value, as `bytes.Compare` orders them. -/
instance instLinearOrderUInt8 : LinearOrder UInt8 :=
  LinearOrder.lift' UInt8.toNat fun _ _ => UInt8.toNat.inj

/-- Results compared by value, so that a run of a fallible function can be evaluated. -/
instance instDecidableEqExcept {ε α : Type} [DecidableEq ε] [DecidableEq α] :
    DecidableEq (Except ε α)
  | .error a, .error b => decidable_of_iff (a = b) (by simp)
  | .ok a, .ok b => decidable_of_iff (a = b) (by simp)
  | .error _, .ok _ => isFalse (by simp)
  | .ok _, .error _ => isFalse (by simp)

/-- A key: `ranje.Key` in the keyspace and `key` in the kv node. -/
abbrev Key := Bytes

/-- Modelled from the spec: `ranje.ZeroKey`, whose declaration is not under src/. It is the empty
key, the sentinel for an unbounded side of an interval. -/
def ZeroKey : Key := []

/-- `[start, end)` holds `k`, with `ZeroKey` as `start` meaning -∞ and as `end` meaning +∞: the
test of `RangeMeta.Contains`, where `bytes.Compare(k, start) >= 0` is `¬ k < start`. -/
def containsKey (start «end» k : Key) : Bool :=
  (start == ZeroKey || !decide (k < start)) && («end» == ZeroKey || decide (k < «end»))

theorem zeroKey_le (k : Key) : ZeroKey ≤ k := List.nil_le

theorem zeroKey_lt {k : Key} (h : k ≠ ZeroKey) : ZeroKey < k :=
  lt_of_le_of_ne (zeroKey_le k) (Ne.symm h)

@[simp] theorem containsKey_iff {a b k : Key} :
    containsKey a b k = true ↔ (a = ZeroKey ∨ a ≤ k) ∧ (b = ZeroKey ∨ k < b) := by
  simp [containsKey]

/-- An interval holds some key exactly when one of its sides is unbounded or `start < end`. -/
theorem exists_containsKey_iff {a b : Key} :
    (∃ k, containsKey a b k = true) ↔ a = ZeroKey ∨ b = ZeroKey ∨ a < b := by
  constructor
  · rintro ⟨k, hk⟩
    obtain ⟨ha | ha, hb | hb⟩ := containsKey_iff.1 hk
    all_goals first | exact .inl ha | exact .inr (.inl hb) | exact .inr (.inr (lt_of_le_of_lt ha hb))
  · rintro (ha | hb | hab)
    · by_cases hb : b = ZeroKey
      · exact ⟨ZeroKey, by simp [ha, hb]⟩
      · exact ⟨ZeroKey, by simp [ha, zeroKey_lt hb]⟩
    · exact ⟨a, by simp [hb]⟩
    · exact ⟨a, by simp [hab]⟩

/-- Cutting `[a, b)` at an inner key `m` other than `ZeroKey`: every key of `[a, b)` lies in
`[a, m)` or in `[m, b)`, and every key of either lies in `[a, b)`. -/
theorem containsKey_split {a b m : Key} (hm : m ≠ ZeroKey) (hin : containsKey a b m = true)
    (x : Key) : containsKey a b x = true ↔ containsKey a m x = true ∨ containsKey m b x = true := by
  simp only [containsKey_iff, hm, false_or] at hin ⊢
  obtain ⟨ha, hb⟩ := hin
  constructor
  · rintro ⟨hax, hbx⟩
    rcases lt_or_le x m with h | h
    · exact .inl ⟨hax, h⟩
    · exact .inr ⟨h, hbx⟩
  · rintro (⟨hax, hxm⟩ | ⟨hmx, hbx⟩)
    · exact ⟨hax, hb.imp_right (lt_trans hxm)⟩
    · exact ⟨ha.imp_right (le_trans · hmx), hbx⟩

/-- The two halves of a cut at a key other than `ZeroKey` share no key. -/
theorem containsKey_split_disjoint {a b m : Key} (hm : m ≠ ZeroKey) (x : Key) :
    ¬ (containsKey a m x = true ∧ containsKey m b x = true) := by
  simp only [containsKey_iff, hm, false_or]
  rintro ⟨⟨-, hxm⟩, hmx, -⟩
  exact absurd hxm (not_lt_of_le hmx)

/-- Two non-empty intervals meeting at a key other than `ZeroKey` glue to an interval that holds
that key, so their union is an interval. -/
theorem containsKey_glue {a b m : Key} (hm : m ≠ ZeroKey) (h₁ : ∃ y, containsKey a m y = true)
    (h₂ : ∃ y, containsKey m b y = true) : containsKey a b m = true := by
  obtain ⟨y₁, hy₁⟩ := h₁
  obtain ⟨y₂, hy₂⟩ := h₂
  obtain ⟨ha, hy₁⟩ := containsKey_iff.1 hy₁
  obtain ⟨hy₂, hb⟩ := containsKey_iff.1 hy₂
  simp only [hm, false_or] at hy₁ hy₂
  refine containsKey_iff.2 ⟨ha.imp_right fun h => (lt_of_le_of_lt h hy₁).le, ?_⟩
  exact hb.imp_right (lt_of_le_of_lt hy₂)

end Ranger
