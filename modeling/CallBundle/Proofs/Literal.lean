import CallBundle.Coercion
import CallBundle.Proofs.Amount

/-!
The grammar of number literals, and the numbers that they denote. Main statement:
`literal_reads_denoted`, so a text is read as a number if and only if it denotes that number.
-/

namespace CallBundle.Amount

/-- An exponent is a precision of its own. -/
inductive ExponentText (given : Nat) : List Char → Nat → Prop
  | missing : ExponentText given [] given
  | stated {digits : List Char} {precision : Nat} :
      Numeral digits precision → ExponentText given ('e' :: digits) precision

/-- The units of time, and how many seconds each has. -/
inductive TimeUnit : Char → Nat → Prop
  | second : TimeUnit 's' 1
  | minute : TimeUnit 'm' 60
  | hour : TimeUnit 'h' (60 * 60)
  | day : TimeUnit 'd' (24 * 60 * 60)
  | week : TimeUnit 'w' (7 * 24 * 60 * 60)
  | year : TimeUnit 'y' (365 * 24 * 60 * 60)

/-- A unit is a letter, and one that is no unit of time counts for nothing. -/
inductive UnitText : List Char → Nat → Prop
  | missing : UnitText [] 1
  | time {c : Char} {seconds : Nat} : TimeUnit c seconds → UnitText [c] seconds
  | other {c : Char} : c.isAlpha → c ≠ 'e' → c ≠ 'E' → (∀ seconds, ¬ TimeUnit c seconds) →
      UnitText [c] 1

/-- The number that a literal denotes. It is a whole number of 256 bits, and no digit is lost. -/
inductive Denotes (given : Nat) : List Char → Nat → Prop
  | literal {amount exponent unit integer fraction : List Char} {n precision multiplier : Nat} :
      AmountText amount integer fraction → Numeral (integer ++ fraction) n →
      ExponentText given exponent precision → UnitText unit multiplier →
      precision ≤ 77 → fraction.length ≤ precision →
      n * 10 ^ (precision - fraction.length) * multiplier < 2 ^ 256 →
        Denotes given (amount ++ exponent ++ unit)
          (n * 10 ^ (precision - fraction.length) * multiplier)

namespace Literal

def exponentText (l : Literal) : List Char := l.exponent.elim [] ('e' :: ·)

def chars (l : Literal) : List Char := l.amount ++ l.exponentText ++ l.unit.toList

/-- The parts of a literal, with digits of any script. -/
structure WellFormed (l : Literal) : Prop where
  amount : ∃ integer fraction, AmountText l.amount integer fraction ∧
    ∀ c ∈ integer ++ fraction, Text.isDecimalDigit c
  exponent : ∀ digits, l.exponent = some digits →
    digits ≠ [] ∧ ∀ c ∈ digits, Text.isDecimalDigit c
  unit : ∀ c, l.unit = some c → isUnit c

theorem splitAmount_append {amount integer fraction rest : List Char}
    (h : AmountText amount integer fraction)
    (hdecimal : ∀ c ∈ integer ++ fraction, Text.isDecimalDigit c)
    (hrest : ∀ c, rest.head? = some c → Text.isDecimalDigit c = false ∧ c ≠ '.') :
    splitAmount (amount ++ rest) = (amount, rest) := by
  rw [List.forall_mem_append] at hdecimal
  have hend : ∀ c, rest.head? = some c → Text.isDecimalDigit c = false := fun c hc => (hrest c hc).1
  cases h with
  | whole =>
    obtain ⟨htake, hdrop⟩ := span_append hdecimal.1 hend
    rw [splitAmount, htake, hdrop]
    split
    · exact absurd rfl (hrest '.' rfl).2
    · rfl
  | pointed =>
    have hpoint : ∀ c, ('.' :: (fraction ++ rest)).head? = some c →
        Text.isDecimalDigit c = false := by
      rintro c ⟨⟩
      decide
    obtain ⟨htake, hdrop⟩ := span_append hdecimal.1 hpoint
    obtain ⟨htake', hdrop'⟩ := span_append hdecimal.2 hend
    rw [List.append_assoc, List.cons_append, splitAmount, htake, hdrop]
    simp only [htake', hdrop']

theorem exists_amountText (cs : List Char) :
    (splitAmount cs).1 ++ (splitAmount cs).2 = cs ∧
      ∃ integer fraction, AmountText (splitAmount cs).1 integer fraction ∧
        ∀ c ∈ integer ++ fraction, Text.isDecimalDigit c := by
  have hrun (cs : List Char) : ∀ c ∈ cs.takeWhile Text.isDecimalDigit, Text.isDecimalDigit c :=
    fun _ => List.mem_takeWhile_imp
  have hcs := List.takeWhile_append_dropWhile (p := Text.isDecimalDigit) (l := cs)
  rw [splitAmount]
  split
  case h_1 rest hrest =>
    rw [hrest] at hcs
    refine ⟨?_, _, _, .pointed _ _, List.forall_mem_append.mpr ⟨hrun cs, hrun rest⟩⟩
    rw [List.append_assoc, List.cons_append, List.takeWhile_append_dropWhile, hcs]
  case h_2 =>
    refine ⟨hcs, _, _, .whole _, ?_⟩
    rw [List.append_nil]
    exact hrun cs

theorem splitExponent_append {exponent : Option (List Char)} {rest : List Char}
    (h : ∀ digits, exponent = some digits → ∀ c ∈ digits, Text.isDecimalDigit c)
    (hrest : ∀ c, rest.head? = some c → Text.isDecimalDigit c = false ∧ c ≠ 'e') :
    splitExponent (exponent.elim [] ('e' :: ·) ++ rest) = (exponent, rest) := by
  cases exponent with
  | none =>
    rw [Option.elim_none, List.nil_append, splitExponent]
    rintro rest' rfl
    exact (hrest 'e' rfl).2 rfl
  | some digits =>
    obtain ⟨htake, hdrop⟩ := span_append (h digits rfl) fun c hc => (hrest c hc).1
    rw [Option.elim_some, List.cons_append, splitExponent, htake, hdrop]

theorem exists_exponentText (cs : List Char) :
    (splitExponent cs).1.elim [] ('e' :: ·) ++ (splitExponent cs).2 = cs ∧
      ∀ digits, (splitExponent cs).1 = some digits → ∀ c ∈ digits, Text.isDecimalDigit c := by
  fun_cases splitExponent cs with
  | case1 rest =>
    refine ⟨congrArg ('e' :: ·) List.takeWhile_append_dropWhile, ?_⟩
    rintro digits ⟨⟩ c
    exact List.mem_takeWhile_imp
  | case2 => exact ⟨rfl, nofun⟩

theorem isUnit_iff {c : Char} : isUnit c ↔ c.isAlpha ∧ c ≠ 'e' ∧ c ≠ 'E' := by
  simp [isUnit, and_assoc]

/-- A unit ends what stands before it. -/
theorem ends_of_isUnit {c : Char} (h : isUnit c) :
    Text.isDecimalDigit c = false ∧ c ≠ '.' ∧ c ≠ 'e' := by
  obtain ⟨halpha, he, -⟩ := isUnit_iff.mp h
  refine ⟨?_, ?_, he⟩
  · have hc : 65 ≤ c.toNat ∧ c.toNat < 128 := by
      simp [Char.isAlpha, Char.isUpper, Char.isLower, UInt32.le_iff_toNat_le] at halpha
      omega
    by_contra hdecimal
    have hdigit := isDigit_of_isDecimalDigit (Bool.not_eq_false _ ▸ hdecimal) hc.2
    have hrange : 48 ≤ c.toNat ∧ c.toNat ≤ 57 := Char.isDigit_iff_toNat.mp hdigit
    omega
  · rintro rfl
    exact absurd halpha (by decide)

theorem ends_of_head?_unit {l : Literal} (h : l.WellFormed) {c : Char}
    (hc : l.unit.toList.head? = some c) : Text.isDecimalDigit c = false ∧ c ≠ '.' ∧ c ≠ 'e' := by
  rw [Option.head?_toList] at hc
  exact ends_of_isUnit (h.unit c hc)

theorem ends_of_head?_exponentText {l : Literal} (h : l.WellFormed) {c : Char}
    (hc : (l.exponentText ++ l.unit.toList).head? = some c) :
    Text.isDecimalDigit c = false ∧ c ≠ '.' := by
  cases hexponent : l.exponent with
  | none =>
    rw [exponentText, hexponent] at hc
    exact (ends_of_head?_unit h hc).imp_right And.left
  | some digits =>
    rw [exponentText, hexponent] at hc
    cases hc
    decide

/-- A text is read as a literal if and only if it is the parts of that literal one after another. -/
theorem ofChars?_eq_some_iff {cs : List Char} {l : Literal} :
    ofChars? cs = some l ↔ l.WellFormed ∧ l.chars = cs := by
  constructor
  · intro h
    have hamount := exists_amountText cs
    rcases hsplit : splitAmount cs with ⟨amount, rest⟩
    have hexponent := exists_exponentText rest
    rcases hsplit' : splitExponent rest with ⟨exponent, rest'⟩
    rw [hsplit] at hamount
    rw [hsplit'] at hexponent
    obtain ⟨rfl, hdecimal⟩ := hamount
    obtain ⟨rfl, hdigits⟩ := hexponent
    simp only [ofChars?, hsplit, hsplit'] at h
    split at h
    case isTrue => cases h
    case isFalse hne =>
      have hwf (unit : Option Char) (hunit : ∀ c, unit = some c → isUnit c) :
          WellFormed ⟨amount, exponent, unit⟩ :=
        ⟨hdecimal, fun digits heq => ⟨fun hnil => hne (hnil ▸ heq), hdigits digits heq⟩, hunit⟩
      split at h
      case h_1 =>
        cases h
        exact ⟨hwf none nofun, List.append_assoc ..⟩
      case h_2 c =>
        split at h
        case isFalse => cases h
        case isTrue hc =>
          cases h
          refine ⟨hwf (some c) ?_, List.append_assoc ..⟩
          rintro c ⟨⟩
          exact hc
      case h_3 => cases h
  · rintro ⟨h, rfl⟩
    obtain ⟨integer, fraction, hamount, hdecimal⟩ := h.amount
    have hexponent := splitExponent_append (fun digits hd => (h.exponent digits hd).2)
      fun c hc => (ends_of_head?_unit h hc).imp_right And.right
    have hne : l.exponent ≠ some [] := fun hnil => (h.exponent [] hnil).1 rfl
    rw [ofChars?, chars, List.append_assoc,
      splitAmount_append hamount hdecimal fun _ => ends_of_head?_exponentText h]
    simp only [exponentText, hexponent]
    rw [if_neg hne]
    cases l with
    | mk amount exponent unit =>
      cases unit with
      | none => rfl
      | some c => exact if_pos (h.unit c rfl)

end Literal

theorem le_ofDigitChars (cs : List Char) (n : Nat) : n ≤ Nat.ofDigitChars 10 cs n := by
  induction cs generalizing n with
  | nil => exact Nat.le_refl n
  | cons c cs ih =>
    rw [Nat.ofDigitChars_cons]
    refine Nat.le_trans ?_ (ih _)
    omega

theorem readExponent_eq_ok_iff {cs : List Char} {n p : Nat} (hn : n < 2 ^ 32) :
    readExponent n cs = .ok p ↔
      (∀ c ∈ cs, c.isDigit) ∧ Nat.ofDigitChars 10 cs n = p ∧ p < 2 ^ 32 := by
  fun_induction readExponent n cs with
  | case1 n =>
    simp only [Except.ok.injEq, List.not_mem_nil, false_implies, implies_true, true_and]
    exact ⟨fun h => ⟨h, h ▸ hn⟩, And.left⟩
  | case2 n c cs hc => simp_all
  | case3 n c cs hc n' hlt ih =>
    have hc : c.isDigit := by simpa using hc
    rw [ih hlt, Nat.ofDigitChars_cons, List.forall_mem_cons, and_iff_right hc]
    exact Iff.rfl
  | case4 n c cs hc n' hlt =>
    constructor
    · intro h
      cases h
    · rintro ⟨-, rfl, hp⟩
      rw [Nat.ofDigitChars_cons] at hp
      exact absurd ((le_ofDigitChars cs n').trans_lt hp) hlt

theorem timeUnit_iff {c : Char} {seconds : Nat} :
    TimeUnit c seconds ↔ timeUnits.lookup c.toString = some seconds := by
  constructor
  · intro h
    cases h with
    | _ => rfl
  · intro h
    obtain ⟨before, after, htable, -⟩ := List.lookup_eq_some_iff.mp h
    have hmem : (c.toString, seconds) ∈ timeUnits := by
      rw [htable]
      exact List.mem_append_right _ List.mem_cons_self
    have hletter : ∀ x ∈ timeUnits, ∃ d : Char, x.1 = d.toString ∧ TimeUnit d x.2 := by
      simp only [timeUnits, List.forall_mem_cons]
      exact ⟨⟨'s', rfl, .second⟩, ⟨'m', rfl, .minute⟩, ⟨'h', rfl, .hour⟩, ⟨'d', rfl, .day⟩,
        ⟨'w', rfl, .week⟩, ⟨'y', rfl, .year⟩, nofun⟩
    obtain ⟨d, hname, hd⟩ := hletter _ hmem
    rwa [String.singleton_inj.mp hname]

theorem TimeUnit.isUnit {c : Char} {seconds : Nat} (h : TimeUnit c seconds) :
    Literal.isUnit c := by
  cases h with
  | _ => rfl

theorem unitMultiplier_eq_iff {c : Char} {multiplier : Nat} (h : Literal.isUnit c) :
    unitMultiplier c.toString = multiplier ↔ UnitText [c] multiplier := by
  rw [unitMultiplier]
  cases hlookup : timeUnits.lookup c.toString with
  | none =>
    have hnone (seconds : Nat) : ¬ TimeUnit c seconds := by
      rw [timeUnit_iff, hlookup]
      nofun
    obtain ⟨halpha, he, hE⟩ := Literal.isUnit_iff.mp h
    constructor
    · rintro rfl
      exact .other halpha he hE hnone
    · rintro (_ | htime | _)
      · exact absurd htime (hnone multiplier)
      · rfl
  | some seconds =>
    have hsome := timeUnit_iff.mpr hlookup
    constructor
    · rintro rfl
      exact .time hsome
    · rintro (_ | htime | ⟨-, -, -, hnone⟩)
      · rw [timeUnit_iff, hlookup] at htime
        exact Option.some.inj htime
      · exact absurd hsome (hnone seconds)

theorem UnitText.pos {cs : List Char} {multiplier : Nat} (h : UnitText cs multiplier) :
    0 < multiplier := by
  cases h with
  | missing | other => decide
  | time h => cases h <;> decide

section

variable {l : Literal} (h : l.WellFormed)

include h

theorem Literal.WellFormed.multiplier_eq_iff {multiplier : Nat} :
    l.multiplier = multiplier ↔ UnitText l.unit.toList multiplier := by
  obtain ⟨amount, exponent, unit⟩ := l
  cases unit with
  | none =>
    constructor
    · rintro rfl
      exact .missing
    · rintro ⟨⟩
      rfl
  | some c => exact unitMultiplier_eq_iff (h.unit c rfl)

theorem Literal.WellFormed.precision_eq_ok_iff {given precision : Nat} (hlt : precision < 2 ^ 32) :
    l.precision given = .ok precision ↔ ExponentText given l.exponentText precision := by
  obtain ⟨amount, exponent, unit⟩ := l
  cases exponent with
  | none =>
    constructor
    · rintro ⟨⟩
      exact .missing
    · rintro ⟨⟩
      rfl
  | some digits =>
    have hne := (h.exponent digits rfl).1
    rw [Literal.precision, readExponent_eq_ok_iff (by decide), and_iff_left hlt]
    constructor
    · rintro ⟨hdigits, hvalue⟩
      exact .stated (numeral_iff.mpr ⟨hne, hdigits, hvalue⟩)
    · rintro (_ | hnumeral)
      exact (numeral_iff.mp hnumeral).2

end

theorem ExponentText.exists_exponent {given precision : Nat} {cs : List Char}
    (h : ExponentText given cs precision) :
    ∃ exponent : Option (List Char), exponent.elim [] ('e' :: ·) = cs ∧
      ∀ digits, exponent = some digits → digits ≠ [] ∧ ∀ c ∈ digits, Text.isDecimalDigit c := by
  cases h with
  | missing => exact ⟨none, rfl, nofun⟩
  | @stated digits precision hdigits =>
    refine ⟨some digits, rfl, ?_⟩
    rintro digits ⟨⟩
    exact ⟨hdigits.ne_nil, fun c hc => Text.isDecimalDigit_of_isDigit (hdigits.isDigit c hc)⟩

theorem UnitText.exists_unit {cs : List Char} {multiplier : Nat} (h : UnitText cs multiplier) :
    ∃ unit : Option Char, unit.toList = cs ∧ ∀ c, unit = some c → Literal.isUnit c := by
  have hletter {c : Char} (hc : Literal.isUnit c) :
      ∃ unit : Option Char, unit.toList = [c] ∧ ∀ c, unit = some c → Literal.isUnit c := by
    refine ⟨some c, rfl, ?_⟩
    rintro c ⟨⟩
    exact hc
  cases h with
  | missing => exact ⟨none, rfl, nofun⟩
  | time h => exact hletter h.isUnit
  | other halpha he hE => exact hletter (Literal.isUnit_iff.mpr ⟨halpha, he, hE⟩)

/-- The parts of a text that denotes a number are those of a literal. -/
theorem exists_literal {amount exponent unit integer fraction : List Char}
    {n given precision multiplier : Nat} (hamount : AmountText amount integer fraction)
    (hn : Numeral (integer ++ fraction) n) (hexponent : ExponentText given exponent precision)
    (hunit : UnitText unit multiplier) :
    ∃ l : Literal, l.WellFormed ∧ l.amount = amount ∧ l.exponentText = exponent ∧
      l.unit.toList = unit := by
  obtain ⟨exponent, rfl, hdigits⟩ := hexponent.exists_exponent
  obtain ⟨unit, rfl, hletter⟩ := hunit.exists_unit
  exact ⟨⟨amount, exponent, unit⟩,
    ⟨⟨integer, fraction, hamount, fun c hc => Text.isDecimalDigit_of_isDigit (hn.isDigit c hc)⟩,
      hdigits, hletter⟩, rfl, rfl, rfl⟩

theorem ite_lt_eq_ok_iff {ε : Type} {e : ε} {n : Nat} {v : Uint256} :
    (if n < Nat.pow 2 256 then pure (BitVec.ofNat 256 n) else .error e : Except ε Uint256) = .ok v ↔
      n = v.toNat := by
  split
  case isTrue hlt =>
    constructor
    · rintro ⟨⟩
      rw [BitVec.toNat_ofNat, Nat.mod_eq_of_lt hlt]
    · rintro rfl
      rw [BitVec.ofNat_toNat, BitVec.setWidth_eq]
      rfl
  case isFalse hlt =>
    constructor
    · rintro ⟨⟩
    · rintro rfl
      exact absurd v.isLt hlt

theorem readNumber_of_literal {raw : String} {given : Nat} {v : Uint256} {l : Literal}
    (h : Literal.ofChars? raw.toList = some l) :
    readNumber raw given = .ok v ↔ ∃ precision scaled, l.precision given = .ok precision ∧
      scale l.amount precision = .ok scaled ∧ scaled.toNat * l.multiplier = v.toNat := by
  simp only [readNumber, h, bind_eq_ok, mapError_eq_ok_iff, ite_lt_eq_ok_iff, exists_and_left]

/-- What is read is what the text denotes. -/
theorem readNumber_eq_ok_iff {raw : String} {given : Nat} {v : Uint256} :
    readNumber raw given = .ok v ↔ Denotes given raw.toList v.toNat := by
  have hmax {precision : Nat} (h : precision ≤ 77) : precision < 2 ^ 32 :=
    h.trans_lt (by decide)
  constructor
  · intro h
    cases hl : Literal.ofChars? raw.toList with
    | none =>
      rw [readNumber, hl] at h
      cases h
    | some l =>
      obtain ⟨hwf, hchars⟩ := Literal.ofChars?_eq_some_iff.mp hl
      obtain ⟨integer, fraction, hamount, hdecimal⟩ := hwf.amount
      obtain ⟨precision, scaled, hprecision, hscaled, hv⟩ := (readNumber_of_literal hl).mp h
      obtain ⟨n, hn, hp, hfraction, hlt, rfl⟩ := (scale_eq_ok_iff hamount hdecimal).mp hscaled
      rw [BitVec.toNat_ofNat, Nat.mod_eq_of_lt hlt] at hv
      have hproduct := v.isLt
      rw [← hv] at hproduct
      rw [← hchars, ← hv]
      exact .literal hamount hn ((hwf.precision_eq_ok_iff (hmax hp)).mp hprecision)
        (hwf.multiplier_eq_iff.mp rfl) hp hfraction hproduct
  · intro h
    generalize htext : raw.toList = cs at h
    generalize hv : v.toNat = m at h
    obtain ⟨hamount, hn, hexponent, hunit, hp, hfraction, hproduct⟩ := h
    obtain ⟨l, hwf, rfl, rfl, rfl⟩ := exists_literal hamount hn hexponent hunit
    -- A unit never makes a number smaller, so what is scaled is in range as well.
    have hlt := (Nat.le_mul_of_pos_right _ hunit.pos).trans_lt hproduct
    have hdecimal := fun c hc => Text.isDecimalDigit_of_isDigit (hn.isDigit c hc)
    have hscaled := (scale_eq_ok_iff hamount hdecimal).mpr ⟨_, hn, hp, hfraction, hlt, rfl⟩
    refine (readNumber_of_literal (Literal.ofChars?_eq_some_iff.mpr ⟨hwf, htext.symm⟩)).mpr
      ⟨_, _, (hwf.precision_eq_ok_iff (hmax hp)).mpr hexponent, hscaled, ?_⟩
    rw [BitVec.toNat_ofNat, Nat.mod_eq_of_lt hlt, hwf.multiplier_eq_iff.mpr hunit, hv]

/-- A digit of another script has its place in a literal, and yet it is not read. -/
example : readNumber "٣" 0 = .error (.scale (.badByte 0xd9)) := by rfl

theorem Denotes.lt {given n : Nat} {cs : List Char} (h : Denotes given cs n) : n < 2 ^ 256 := by
  cases h with
  | literal _ _ _ _ _ _ hlt => exact hlt

theorem Literal.WellFormed.exists_exponent_of_mem {l : Literal} (h : l.WellFormed)
    (he : 'e' ∈ l.chars) : ∃ digits, l.exponent = some digits := by
  cases hexponent : l.exponent with
  | some digits => exact ⟨digits, rfl⟩
  | none =>
    rw [chars, exponentText, hexponent, Option.elim_none, List.append_nil, List.mem_append] at he
    obtain he | he := he
    · obtain ⟨integer, fraction, hamount, hdecimal⟩ := h.amount
      obtain he | he := hamount.eq_or_mem he
      · cases he
      · exact absurd (hdecimal _ he) (by decide)
    · exact absurd rfl (ends_of_isUnit (h.unit 'e' (Option.mem_toList.mp he))).2.2

/-- An exponent takes the place of the given precision. -/
theorem readNumber_of_mem {raw : String} (h : 'e' ∈ raw.toList) (given given' : Nat) :
    readNumber raw given = readNumber raw given' := by
  cases hl : Literal.ofChars? raw.toList with
  | none => rw [readNumber, readNumber, hl]
  | some l =>
    obtain ⟨hwf, hchars⟩ := Literal.ofChars?_eq_some_iff.mp hl
    obtain ⟨digits, hdigits⟩ := hwf.exists_exponent_of_mem (hchars ▸ h)
    have hprecision : l.precision given = l.precision given' := by
      rw [Literal.precision, Literal.precision, hdigits]
    rw [readNumber, readNumber, hl]
    simp only [hprecision]

/-- With the exponent zero, a number is not scaled, whatever the precision. -/
theorem readNumber_exponent_zero (n : Uint256) (precision : Nat) :
    readNumber (toString n.toNat ++ "e0") precision = .ok n := by
  have htext : (toString n.toNat ++ "e0").toList = Nat.toDigits 10 n.toNat ++ ['e', '0'] ++ [] := by
    rw [String.toList_append, Nat.toString_eq_repr, Nat.toList_repr, List.append_nil]
    rfl
  have hnumeral : Numeral (Nat.toDigits 10 n.toNat ++ []) n.toNat := by
    rw [List.append_nil]
    exact numeral_toDigits n.toNat
  have hzero : Numeral ['0'] 0 := .digit (d := 0) (by decide)
  have hlt : n.toNat * 10 ^ (0 - ([] : List Char).length) * 1 < 2 ^ 256 := by
    simpa using n.isLt
  have hdenotes : Denotes precision _ _ :=
    .literal (.whole _) hnumeral (.stated hzero) .missing (by decide) (by decide) hlt
  rw [readNumber_eq_ok_iff, htext]
  simpa using hdenotes

end CallBundle.Amount

namespace CallBundle.Context

variable {σ : Type}

/-- A text is read as the number that it denotes, to the last digit, and any other text is refused
with the type where it stands. A text with an exponent is read in the same way at every precision. -/
theorem literal_reads_denoted (ctx : Context σ) (ty : Abi.Ty) (raw : String) :
    (∀ n, ctx.literal ty raw = .ok n ↔ Amount.Denotes ctx.precision raw.toList n.toNat) ∧
    ((∃ fault, ctx.literal ty raw = .error (.invalidNumber raw ty fault)) ↔
      ∀ n, ¬ Amount.Denotes ctx.precision raw.toList n) ∧
    ('e' ∈ raw.toList → ∀ precision,
      { ctx with precision }.literal ty raw = ctx.literal ty raw) := by
  have hok (n : Uint256) :
      ctx.literal ty raw = .ok n ↔ Amount.Denotes ctx.precision raw.toList n.toNat := by
    rw [literal, mapError_eq_ok_iff, Amount.readNumber_eq_ok_iff]
  refine ⟨hok, ⟨?_, ?_⟩, ?_⟩
  · rintro ⟨fault, hfault⟩ n hn
    have hn' : ctx.literal ty raw = .ok (BitVec.ofNat 256 n) := by
      rw [hok, BitVec.toNat_ofNat, Nat.mod_eq_of_lt hn.lt]
      exact hn
    rw [hfault] at hn'
    cases hn'
  · intro hnone
    cases hread : Amount.readNumber raw ctx.precision with
    | ok n => exact absurd (Amount.readNumber_eq_ok_iff.mp hread) (hnone n.toNat)
    | error fault => exact ⟨fault, by rw [literal, hread, Except.mapError]⟩
  · intro he precision
    rw [literal, literal, Amount.readNumber_of_mem he precision ctx.precision]

/-- Two and a half minutes, in hundredths of a second. -/
theorem literal_reads_denoted_minutes :
    let ctx : Context Unit := {}
    'e' ∈ "2.50e2m".toList ∧ ctx.literal (.uint 32) "2.50e2m" = .ok 15000 ∧
      { ctx with precision := 0 }.literal (.uint 32) "2.50e2m" = .ok 15000 := by
  intro ctx
  have hmem : 'e' ∈ "2.50e2m".toList := by decide
  have hexponent : Numeral ['2'] 2 := .digit (d := 2) (by decide)
  have hdigits : Numeral ['2', '5', '0'] 250 :=
    (hexponent.more (d := 5) (by decide)).more (d := 0) (by decide)
  have hdenotes : Amount.Denotes 18 "2.50e2m".toList 15000 :=
    .literal (.pointed ['2'] ['5', '0']) hdigits (.stated hexponent) (.time .minute) (by decide)
      (by decide) (by decide)
  obtain ⟨hok, -, hprecision⟩ := literal_reads_denoted ctx (.uint 32) "2.50e2m"
  have hread := (hok 15000).mpr hdenotes
  exact ⟨hmem, hread, (hprecision hmem 0).trans hread⟩

end CallBundle.Context
