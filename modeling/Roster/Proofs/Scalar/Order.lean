import Mathlib.Data.List.Perm.Subperm
import Roster.Proofs.Number.Rounding
import Roster.Proofs.Scalar.Comparison

/-!
# The order of scalars

Two comparisons one after the other give a third one, if both go upwards: `a < b` and `b = c` make
`a < c` (`Chains`).

- **Numbers of one kind** and **timestamps** chain (`Binary64.compare?_chain`,
  `Timestamp.compare?_chain`).
- **An integer beside a decimal** is rounded. Rounding keeps the order, so a chain holds unless two
  different integers are rounded to what one decimal is equal to (`IsBlurred`). There it fails, in one
  order of the three at least, and there is no such pair up to `2 ^ 53` (`chains_iff`).
- **Two scalars** that change places have the opposite outcome (`compare?_swap`), and numbers that texts denote
  always have one (`ofText_compares`).
-/

namespace Roster

open Number Time

/-! ## Numbers and timestamps -/

namespace Number.Binary64

theorem order_chain {a b c : Int} (h : (order a b).isLE = true) (h' : (order b c).isLE = true) :
    order a c = (order a b).then (order b c) := by
  rw [isLE_order_iff] at h h'
  rcases h.lt_or_eq with hlt | rfl
  · have hlt' : a < c := hlt.trans_le h'
    simp [order, hlt, hlt']
  · rw [order_self]
    rfl

variable {a b c : Binary64} {o p : Ordering}

theorem compare?_swap (a b : Binary64) : b.compare? a = (a.compare? b).map Ordering.swap := by
  cases a with
  | finite s m e =>
    cases b with
    | finite s' m' e' => simp [compare?, order_swap]
    | infinite s' => cases s' <;> rfl
    | nan => rfl
  | infinite s =>
    cases b with
    | infinite s' => cases s <;> cases s' <;> rfl
    | finite s' m' e' => cases s <;> rfl
    | nan => rfl
  | nan => cases b <;> rfl

private theorem then_lt_of_isLE : ∀ {o : Ordering}, o.isLE = true → o.then .lt = .lt := by
  decide

theorem eq_of_compare?_self (h : a.compare? a = some o) : o = .eq := by
  have hswap := compare?_swap a a
  rw [h, Option.map_some, Option.some.injEq] at hswap
  exact Ordering.eq_eq_of_eq_swap hswap

theorem compare?_chain (h : a.compare? b = some o) (h' : b.compare? c = some p)
    (ho : o.isLE = true) (hp : p.isLE = true) : a.compare? c = some (o.then p) := by
  -- Only three finite values need their magnitudes; the signs of infinities decide all else.
  rcases a with ⟨s, m, e⟩ | ⟨_ | _⟩ | _ <;> rcases b with ⟨s', m', e'⟩ | ⟨_ | _⟩ | _ <;>
    rcases c with ⟨s'', m'', e''⟩ | ⟨_ | _⟩ | _ <;> cases h <;> cases h'
  case finite.finite.finite.refl.refl => exact congrArg some (order_chain ho hp)
  case finite.finite.infinite.false.refl.refl => exact congrArg some (then_lt_of_isLE ho).symm
  all_goals simp_all [compare?]

end Number.Binary64

theorem Time.Timestamp.compare?_chain {a b c : Timestamp} {o p : Ordering}
    (h : a.compare? b = some o) (h' : b.compare? c = some p) (ho : o.isLE = true)
    (hp : p.isLE = true) : a.compare? c = some (o.then p) := by
  cases a <;> cases b <;> cases c <;> cases h <;> cases h'
  · exact congrArg some (Binary64.order_chain ho hp)
  · exact congrArg some (Binary64.order_chain ho hp)

namespace Scalar

/-! ## Two scalars -/

variable {a b c : Scalar} {m n : Int64} {v : Binary64} {o p : Ordering}

theorem compare?_swap (a b : Scalar) : b.compare? a = (a.compare? b).map Ordering.swap := by
  cases a with
  | integer m =>
    cases b with
    | integer n => exact congrArg some (Binary64.order_swap _ _).symm
    | decimal w => exact Binary64.compare?_swap _ _
    | _ => rfl
  | decimal v =>
    cases b with
    | integer n => exact Binary64.compare?_swap _ _
    | decimal w => exact Binary64.compare?_swap _ _
    | _ => rfl
  | time s =>
    cases b with
    | time t => cases s <;> cases t <;> simp [compare?, Timestamp.compare?, Binary64.order_swap]
    | _ => rfl
  | text s => cases b <;> rfl

theorem compare?_symm (h : a.compare? b = some .eq) : b.compare? a = some .eq := by
  rw [compare?_swap, h]
  rfl

/-- **What texts denote compares.** No text denotes the datum that is no number. So two numbers that texts
denote have an outcome, which is the opposite one if they change places, and whatever a text denotes, a number, a
timestamp or itself, is equal to itself. -/
theorem ofText_compares (s t : String) :
    ofText s ≠ decimal .nan ∧
    ((ofText s).isNumber = true → (ofText t).isNumber = true →
      ∃ o, (ofText s).compare? (ofText t) = some o ∧ (ofText t).compare? (ofText s) = some o.swap) ∧
    (ofText s).equals (ofText s) = true := by
  refine ⟨ofText_ne_nan s, fun hs ht => ?_, equals_self (ofText_ne_nan s)⟩
  have hcomparable : (ofText s).isComparable (ofText t) = true := isComparable_of_isNumber hs ht
  have hsome := (compare?_isSome_iff (ofText_ne_nan s) (ofText_ne_nan t)).mpr hcomparable
  obtain ⟨o, ho⟩ := Option.isSome_iff_exists.mp hsome
  refine ⟨o, ho, ?_⟩
  rw [compare?_swap, ho, Option.map_some]

/-- A decimal beyond all others, and an integer. -/
theorem ofText_compares_infinite :
    (ofText "-1.e+999").isNumber = true ∧ (ofText "+07").isNumber = true ∧
      (ofText "-1.e+999").compare? (ofText "+07") = some .lt ∧
      (ofText "+07").compare? (ofText "-1.e+999") = some .gt := by
  have hdecimal : ofText "-1.e+999" = decimal (.infinite true) := by decide +kernel
  have hinteger : ofText "+07" = integer 7 := by decide +kernel
  obtain ⟨-, hcompare, -⟩ := ofText_compares "-1.e+999" "+07"
  rw [hdecimal, hinteger] at hcompare ⊢
  obtain ⟨o, ho, hswap⟩ := hcompare rfl rfl
  obtain rfl : o = .lt := (Option.some.inj ho).symm
  exact ⟨rfl, rfl, ho, hswap⟩

/-- The name of the datum that is no number is read as this datum, but has no point in it. -/
example : binary64? ['n', 'a', 'N'] = some .nan ∧ ofText "naN" = text "naN" := by
  decide +kernel

/-! ## Integers beside decimals -/

/-- Rounding keeps the outcome of a comparison of integers, unless it makes them equal. -/
private theorem compare?_rounded (m n : Int64) :
    ∃ q, (Binary64.ofInt m.toInt).compare? (Binary64.ofInt n.toInt) = some q ∧
      (q = order m.toInt n.toInt ∨ q = .eq) := by
  have hword (k : Int64) : k.toInt.natAbs ≤ 2 ^ 64 := by
    have hlow := k.le_toInt
    have hhigh := k.toInt_lt
    omega
  rcases lt_trichotomy m.toInt n.toInt with hlt | heq | hgt
  · obtain ⟨q, hq, hle⟩ := Binary64.compare?_ofInt_of_le (hword m) (hword n) hlt.le
    refine ⟨q, hq, ?_⟩
    rw [order, if_pos hlt]
    exact Ordering.isLE_iff_eq_lt_or_eq_eq.mp hle
  · obtain ⟨q, hq, hle⟩ := Binary64.compare?_ofInt_of_le (hword m) (hword n) heq.le
    refine ⟨q, hq, .inr ?_⟩
    rw [heq] at hq
    exact Binary64.eq_of_compare?_self hq
  · obtain ⟨q, hq, hle⟩ := Binary64.compare?_ofInt_of_le (hword n) (hword m) hgt.le
    refine ⟨q.swap, by rw [Binary64.compare?_swap, hq]; rfl, ?_⟩
    rw [order, if_neg hgt.not_gt, if_pos hgt, Ordering.swap_eq_gt, Ordering.swap_eq_eq]
    exact Ordering.isLE_iff_eq_lt_or_eq_eq.mp hle

/-- Whether a decimal is equal to two different integers. -/
def IsBlurred (scalars : List Scalar) : Prop :=
  ∃ m n v, m ≠ n ∧ integer m ∈ scalars ∧ integer n ∈ scalars ∧ decimal v ∈ scalars ∧
    (integer m).compare? (decimal v) = some .eq ∧ (integer n).compare? (decimal v) = some .eq

/-- Whether an upward comparison of two scalars followed by one of the second with a third is a
comparison of the first with the third: strictly upward if one of the two is, and as equal if both
are. -/
def Chains (a b c : Scalar) : Prop :=
  ∀ o p, a.compare? b = some o → b.compare? c = some p → o.isLE = true → p.isLE = true →
    a.compare? c = some (o.then p)

private theorem order_of_equal {scalars : List Scalar} (h : ¬ IsBlurred scalars)
    (hm : integer m ∈ scalars) (hn : integer n ∈ scalars) (hv : decimal v ∈ scalars)
    (hmv : (integer m).compare? (decimal v) = some .eq)
    (hnv : (integer n).compare? (decimal v) = some .eq) : order m.toInt n.toInt = .eq := by
  have hmn : m = n := by
    by_contra hne
    exact h ⟨m, n, v, hne, hm, hn, hv, hmv, hnv⟩
  rw [hmn, Binary64.order_self]

theorem chains_integer_decimal_integer (h : ¬ IsBlurred [integer m, decimal v, integer n]) :
    Chains (integer m) (decimal v) (integer n) := by
  intro o p hmv hvn ho hp
  obtain ⟨q, hq, hround⟩ := compare?_rounded m n
  obtain rfl : q = o.then p := Option.some.inj (hq.symm.trans (Binary64.compare?_chain hmv hvn ho hp))
  refine congrArg some ?_
  rcases hround with hsame | hequal
  · exact hsame.symm
  · obtain ⟨rfl, rfl⟩ := Ordering.then_eq_eq.mp hequal
    have hnv : (integer n).compare? (decimal v) = some .eq := compare?_symm hvn
    exact order_of_equal h (by simp) (by simp) (by simp) hmv hnv

theorem chains_integer_integer_decimal (h : ¬ IsBlurred [integer m, integer n, decimal v]) :
    Chains (integer m) (integer n) (decimal v) := by
  intro o p hmn hnv ho hp
  obtain rfl := Option.some.inj hmn
  obtain ⟨q, hq, hround⟩ := compare?_rounded m n
  rcases hround with rfl | rfl
  · exact Binary64.compare?_chain hq hnv ho hp
  · have hmv : (integer m).compare? (decimal v) = some p := Binary64.compare?_chain hq hnv rfl hp
    rw [hmv]
    cases p with
    | lt => rw [Binary64.then_lt_of_isLE ho]
    | eq => rw [order_of_equal h (by simp) (by simp) (by simp) hmv hnv, Ordering.then_self]
    | gt => cases hp

theorem chains_decimal_integer_integer (h : ¬ IsBlurred [decimal v, integer m, integer n]) :
    Chains (decimal v) (integer m) (integer n) := by
  intro o p hvm hmn ho hp
  obtain rfl := Option.some.inj hmn
  obtain ⟨q, hq, hround⟩ := compare?_rounded m n
  rcases hround with rfl | rfl
  · exact Binary64.compare?_chain hvm hq ho hp
  · have hvn : (decimal v).compare? (integer n) = some (o.then .eq) :=
      Binary64.compare?_chain hvm hq ho rfl
    rw [hvn]
    cases o with
    | lt => rfl
    | eq =>
      have hmv : (integer m).compare? (decimal v) = some .eq := compare?_symm hvm
      have hnv : (integer n).compare? (decimal v) = some .eq := compare?_symm hvn
      rw [order_of_equal h (by simp) (by simp) (by simp) hmv hnv]
    | gt => cases ho

theorem chains_of_not_isBlurred (h : ¬ IsBlurred [a, b, c]) : Chains a b c := by
  intro o p hab hbc ho hp
  -- One integer among decimals is compared as the decimal it is rounded to. Where there are two,
  -- the rounding may confuse them, and these cases need the hypothesis.
  cases a with
  | integer m =>
    cases b with
    | integer n =>
      cases c with
      | integer k =>
        obtain rfl := Option.some.inj hab
        obtain rfl := Option.some.inj hbc
        exact congrArg some (Binary64.order_chain ho hp)
      | decimal v => exact chains_integer_integer_decimal h o p hab hbc ho hp
      | _ => cases hbc
    | decimal v =>
      cases c with
      | integer k => exact chains_integer_decimal_integer h o p hab hbc ho hp
      | decimal w => exact Binary64.compare?_chain hab hbc ho hp
      | _ => cases hbc
    | _ => cases hab
  | decimal v =>
    cases b with
    | integer n =>
      cases c with
      | integer k => exact chains_decimal_integer_integer h o p hab hbc ho hp
      | decimal w => exact Binary64.compare?_chain hab hbc ho hp
      | _ => cases hbc
    | decimal w =>
      cases c with
      | integer k => exact Binary64.compare?_chain hab hbc ho hp
      | decimal u => exact Binary64.compare?_chain hab hbc ho hp
      | _ => cases hbc
    | _ => cases hab
  | time s =>
    cases b with
    | time t =>
      cases c with
      | time u => exact Timestamp.compare?_chain hab hbc ho hp
      | _ => cases hbc
    | _ => cases hab
  | text s => cases b <;> cases hab

/-! ## Where the order fails -/

/-- Two integers that one decimal is equal to would have to be equal themselves. -/
theorem not_chains_of_equal (hmn : m ≠ n) (hmv : (integer m).compare? (decimal v) = some .eq)
    (hnv : (integer n).compare? (decimal v) = some .eq) :
    ¬ Chains (integer m) (decimal v) (integer n) := by
  intro h
  have hvn : (decimal v).compare? (integer n) = some .eq := compare?_symm hnv
  have hequal : some (order m.toInt n.toInt) = some .eq := h .eq .eq hmv hvn rfl rfl
  rw [Option.some.injEq, Binary64.order_eq_eq_iff] at hequal
  exact hmn (Int64.toInt_inj.mp hequal)

/-- Three scalars are in order, whichever of them comes first and second, unless two of them are
integers that the third one blurs. -/
theorem chains_iff (a b c : Scalar) :
    (∀ x y z, [x, y, z].Perm [a, b, c] → Chains x y z) ↔ ¬ IsBlurred [a, b, c] := by
  constructor
  · rintro h ⟨m, n, v, hmn, hm, hn, hv, hmv, hnv⟩
    have hnodup : [integer m, decimal v, integer n].Nodup := by simp [hmn]
    have hmem : [integer m, decimal v, integer n] ⊆ [a, b, c] := by simp [hm, hn, hv]
    have hperm := (List.subperm_of_subset hnodup hmem).perm_of_length_le le_rfl
    exact not_chains_of_equal hmn hmv hnv (h _ _ _ hperm)
  · rintro h x y z hperm
    refine chains_of_not_isBlurred ?_
    rintro ⟨m, n, v, hmn, hm, hn, hv, hequal⟩
    exact h ⟨m, n, v, hmn, hperm.mem_iff.mp hm, hperm.mem_iff.mp hn, hperm.mem_iff.mp hv, hequal⟩

/-- Integers up to `2 ^ 53` are decimals as they are. -/
theorem not_isBlurred_of_le {scalars : List Scalar}
    (h : ∀ n, integer n ∈ scalars → n.toInt.natAbs ≤ 2 ^ 53) : ¬ IsBlurred scalars := by
  rintro ⟨m, n, v, hmn, hm, hn, -, hmv, hnv⟩
  have hvn : (decimal v).compare? (integer n) = some .eq := compare?_symm hnv
  have hequal : (Binary64.ofInt m.toInt).compare? (Binary64.ofInt n.toInt) = some .eq :=
    Binary64.compare?_chain hmv hvn rfl rfl
  exact hmn (Int64.toInt_inj.mp (Binary64.eq_of_compare?_ofInt (h m hm) (h n hn) hequal))

/-- **When comparison is transitive**, for the scalars of any three texts: in whichever order they are
taken, unless two of them are integers that the third one blurs. No integers up to `2 ^ 53` are
blurred. -/
theorem compare?_transitive_iff (s₁ s₂ s₃ : String) :
    ((∀ a b c, [a, b, c].Perm [ofText s₁, ofText s₂, ofText s₃] → Chains a b c) ↔
      ¬ IsBlurred [ofText s₁, ofText s₂, ofText s₃]) ∧
    ((∀ n, integer n ∈ [ofText s₁, ofText s₂, ofText s₃] → n.toInt.natAbs ≤ 2 ^ 53) →
      ¬ IsBlurred [ofText s₁, ofText s₂, ofText s₃]) :=
  ⟨chains_iff _ _ _, not_isBlurred_of_le⟩

theorem compare?_transitive_iff_small :
    (∀ n, integer n ∈ [ofText "-7", ofText "6.5e0", ofText "9007199254740992"] →
      n.toInt.natAbs ≤ 2 ^ 53) ∧
    Chains (ofText "-7") (ofText "6.5e0") (ofText "9007199254740992") := by
  have hread : [ofText "-7", ofText "6.5e0", ofText "9007199254740992"]
      = [integer (-7), decimal (.finite false 7318349394477056 (-50)), integer 9007199254740992] := by
    decide +kernel
  have hsmall : ∀ n, integer n ∈ [ofText "-7", ofText "6.5e0", ofText "9007199254740992"] →
      n.toInt.natAbs ≤ 2 ^ 53 := by
    intro n hn
    rw [hread] at hn
    simp only [List.mem_cons, integer.injEq, reduceCtorEq, List.not_mem_nil, or_false,
      false_or] at hn
    rcases hn with rfl | rfl <;> decide
  obtain ⟨hiff, hclear⟩ := compare?_transitive_iff "-7" "6.5e0" "9007199254740992"
  exact ⟨hsmall, hiff.mpr (hclear hsmall) _ _ _ (List.Perm.refl _)⟩

/-- The decimal `2 ^ 53` is equal to the integer `2 ^ 53` and to the one above. -/
theorem compare?_not_transitive :
    (ofText "9007199254740993").compare? (ofText "9007199254740992.0") = some .eq ∧
    (ofText "9007199254740992.0").compare? (ofText "9007199254740992") = some .eq ∧
    (ofText "9007199254740993").compare? (ofText "9007199254740992") = some .gt := by
  decide +kernel

end Scalar

end Roster
