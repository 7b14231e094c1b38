import Mathlib
import CallBundle.Proofs.Abi.Element
import CallBundle.Proofs.Numeral

/-!
The grammar of type texts: a scalar name, then any number of array suffixes, the innermost first. Main
statement: `ofText_reads_grammar`, so a text is read as a type if and only if the grammar has it as
one, and the canonical text of a type within its bounds is read as that type.
-/

namespace CallBundle.Abi.Ty

/-- The numbers in a type are within their bounds. -/
def Proper : Ty → Prop
  | .fixedBytes width => BytesWidth width
  | .uint bits => IntegerWidth bits
  | .int bits => IntegerWidth bits
  | .array element => element.Proper
  | .fixedArray element length => element.Proper ∧ 1 ≤ length ∧ length < 2 ^ 64
  | _ => True

instance decidableProper : (ty : Ty) → Decidable ty.Proper
  | .address | .bool | .string | .bytes => .isTrue trivial
  | .fixedBytes width => inferInstanceAs (Decidable (BytesWidth width))
  | .uint bits => inferInstanceAs (Decidable (IntegerWidth bits))
  | .int bits => inferInstanceAs (Decidable (IntegerWidth bits))
  | .array element => decidableProper element
  | .fixedArray element length =>
    have := decidableProper element
    inferInstanceAs (Decidable (element.Proper ∧ 1 ≤ length ∧ length < 2 ^ 64))

/-- The names of scalar types. -/
inductive ScalarText : List Char → Ty → Prop
  | address : ScalarText "address".toList .address
  | bool : ScalarText "bool".toList .bool
  | string : ScalarText "string".toList .string
  | bytes : ScalarText "bytes".toList .bytes
  | fixedBytes {digits : List Char} {width : Nat} : Numeral digits width → BytesWidth width →
      ScalarText ("bytes".toList ++ digits) (.fixedBytes width)
  | bareUint : ScalarText "uint".toList (.uint 256)
  | uint {digits : List Char} {bits : Nat} : Numeral digits bits → IntegerWidth bits →
      ScalarText ("uint".toList ++ digits) (.uint bits)
  | bareInt : ScalarText "int".toList (.int 256)
  | int {digits : List Char} {bits : Nat} : Numeral digits bits → IntegerWidth bits →
      ScalarText ("int".toList ++ digits) (.int bits)

/-- The texts of types. A suffix makes an array of what stands before it. -/
inductive HasText : List Char → Ty → Prop
  | scalar {cs : List Char} {ty : Ty} : ScalarText cs ty → HasText cs ty
  | array {cs : List Char} {element : Ty} :
      HasText cs element → HasText (cs ++ ['[', ']']) (.array element)
  | fixedArray {cs digits : List Char} {element : Ty} {length : Nat} :
      HasText cs element → Numeral digits length → 1 ≤ length → length < 2 ^ 64 →
        HasText (cs ++ '[' :: digits ++ [']']) (.fixedArray element length)

theorem filter_number?_eq_some_iff {digits : List Char} {n : Nat} {p : Nat → Bool} :
    (number? digits).filter p = some n ↔ Numeral digits n ∧ p n := by
  rw [Option.filter_eq_some_iff, number?_eq_some_iff]

theorem byteWidth?_eq_some_iff {digits : List Char} {width : Nat} :
    byteWidth? digits = some width ↔ Numeral digits width ∧ BytesWidth width := by
  rw [byteWidth?, filter_number?_eq_some_iff, BytesWidth]
  simp [Nat.succ_le_iff]

theorem integerBits?_eq_some_iff {digits : List Char} {bits : Nat} :
    integerBits? digits = some bits ↔
      digits = [] ∧ bits = 256 ∨ Numeral digits bits ∧ IntegerWidth bits := by
  cases digits with
  | nil =>
    have hnil : ¬ Numeral [] bits := fun h => h.ne_nil rfl
    simp [integerBits?, hnil, eq_comm]
  | cons c cs =>
    have hwidth : (0 < bits && bits ≤ 256 && bits % 8 == 0) = true ↔ IntegerWidth bits := by
      simp [IntegerWidth]
      omega
    rw [integerBits?, filter_number?_eq_some_iff, hwidth]
    · simp
    · simp

theorem length?_eq_some_iff {digits : List Char} {length : Nat} :
    length? digits = some length ↔ Numeral digits length ∧ 1 ≤ length ∧ length < 2 ^ 64 := by
  rw [length?, filter_number?_eq_some_iff]
  simp [sizeLimit, Nat.succ_le_iff, Nat.le_iff_lt_add_one]

/-- Both integer names are read in one way, with a width behind them or bare. -/
theorem ScalarText.of_integerBits? {mark name digits : List Char} {sized : Nat → Ty} {ty : Ty}
    (hbare : ScalarText mark (sized 256))
    (hsized : ∀ {digits bits}, Numeral digits bits → IntegerWidth bits →
      ScalarText (mark ++ digits) (sized bits))
    (hmark : mark.isPrefixOf? name = some digits)
    (h : (integerBits? digits).map sized = some ty) : ScalarText name ty := by
  rw [Option.map_eq_some_iff] at h
  obtain ⟨bits, hbits, rfl⟩ := h
  rw [← List.isPrefixOf?_eq_some_iff_append_eq.mp hmark]
  obtain ⟨rfl, rfl⟩ | hbits := integerBits?_eq_some_iff.mp hbits
  · rwa [List.append_nil]
  · exact hsized hbits.1 hbits.2

theorem scalar?_eq_some_iff {name : List Char} {ty : Ty} :
    scalar? name = some ty ↔ ScalarText name ty := by
  constructor
  · intro h
    unfold scalar? at h
    split at h
    case isTrue haddress =>
      cases h
      exact haddress ▸ .address
    split at h
    case isTrue hbool =>
      cases h
      exact hbool ▸ .bool
    split at h
    case isTrue hstring =>
      cases h
      exact hstring ▸ .string
    split at h
    case isTrue hbytes =>
      cases h
      exact hbytes ▸ .bytes
    split at h
    case h_1 digits hmark =>
      rw [Option.map_eq_some_iff] at h
      obtain ⟨width, hwidth, rfl⟩ := h
      rw [byteWidth?_eq_some_iff] at hwidth
      rw [← List.isPrefixOf?_eq_some_iff_append_eq.mp hmark]
      exact .fixedBytes hwidth.1 hwidth.2
    split at h
    case h_1 digits hmark => exact .of_integerBits? .bareUint .uint hmark h
    split at h
    case h_1 digits hmark => exact .of_integerBits? .bareInt .int hmark h
    cases h
  · intro h
    cases h with
    | address | bool | string | bytes | bareUint | bareInt => rfl
    | @fixedBytes digits width hdigits hwidth =>
      have hne := hdigits.ne_nil
      have hbytes := byteWidth?_eq_some_iff.mpr ⟨hdigits, hwidth⟩
      simp [scalar?, List.isPrefixOf?, hne, hbytes]
    | @uint digits bits hdigits hbits =>
      have hread := integerBits?_eq_some_iff.mpr (.inr ⟨hdigits, hbits⟩)
      simp [scalar?, List.isPrefixOf?, hread]
    | @int digits bits hdigits hbits =>
      have hread := integerBits?_eq_some_iff.mpr (.inr ⟨hdigits, hbits⟩)
      simp [scalar?, List.isPrefixOf?, hread]

/-- One array suffix. -/
inductive DimText : List Char → Dim → Prop
  | array : DimText ['[', ']'] none
  | fixedArray {digits : List Char} {length : Nat} :
      Numeral digits length → 1 ≤ length → length < 2 ^ 64 →
        DimText ('[' :: digits ++ [']']) (some length)

/-- Array suffixes one after another. -/
inductive DimTexts : List Char → List Dim → Prop
  | nil : DimTexts [] []
  | cons {cs cs' : List Char} {dim : Dim} {dims : List Dim} :
      DimText cs dim → DimTexts cs' dims → DimTexts (cs ++ cs') (dim :: dims)

theorem DimTexts.concat {cs cs' : List Char} {dim : Dim} {dims : List Dim} (h : DimTexts cs dims)
    (hdim : DimText cs' dim) : DimTexts (cs ++ cs') (dims ++ [dim]) := by
  induction h with
  | nil =>
    have hlast := DimTexts.cons hdim .nil
    rwa [List.append_nil] at hlast
  | cons hfirst _ ih =>
    rw [List.append_assoc]
    exact .cons hfirst ih

theorem dim?_eq_some_iff {digits : List Char} {dim : Dim} :
    dim? digits = some dim ↔ DimText ('[' :: digits ++ [']']) dim := by
  constructor
  · intro h
    cases digits with
    | nil =>
      cases h
      exact .array
    | cons c cs =>
      simp only [dim?, Option.map_eq_some_iff, length?_eq_some_iff] at h
      obtain ⟨length, ⟨hdigits, hpos, hlt⟩, rfl⟩ := h
      exact .fixedArray hdigits hpos hlt
  · generalize htext : '[' :: digits ++ [']'] = text
    intro h
    cases h with
    | array =>
      have hnil : digits = [] := by simpa using htext
      subst hnil
      rfl
    | @fixedArray digits' length hdigits hpos hlt =>
      have heq : digits = digits' := by simpa using htext
      subst heq
      have hlength := length?_eq_some_iff.mpr ⟨hdigits, hpos, hlt⟩
      cases digits with
      | nil => exact absurd rfl hdigits.ne_nil
      | cons c cs =>
        rw [dim?, hlength]
        · rfl
        · exact List.cons_ne_nil c cs

theorem DimText.digits {cs : List Char} {dim : Dim} (h : DimText cs dim) :
    ∃ digits, cs = '[' :: digits ++ [']'] ∧ ∀ c ∈ digits, c.isDigit := by
  cases h with
  | array => exact ⟨[], rfl, nofun⟩
  | fixedArray hdigits => exact ⟨_, rfl, hdigits.isDigit⟩

/-- Digits behind an open bracket are kept until the bracket is closed. -/
theorem dims?_some_append {digits : List Char} (h : ∀ c ∈ digits, c.isDigit)
    (before rest : List Char) :
    dims? (some before) (digits ++ ']' :: rest) =
      (dim? (before ++ digits)).bind fun dim => (dims? none rest).bind fun dims =>
        some (dim :: dims) := by
  induction digits generalizing before with
  | nil =>
    rw [List.append_nil]
    rfl
  | cons c cs ih =>
    rw [List.forall_mem_cons] at h
    have hc : c ≠ ']' := fun hc => absurd (hc ▸ h.1) (by decide)
    rw [List.cons_append, dims?, if_neg hc, if_pos h.1, ih h.2, List.append_assoc,
      List.singleton_append]

theorem dims?_of_dimTexts {cs : List Char} {dims : List Dim} (h : DimTexts cs dims) :
    dims? none cs = some dims := by
  induction h with
  | nil => rfl
  | @cons cs cs' dim dims hdim _ ih =>
    obtain ⟨digits, rfl, hdigits⟩ := hdim.digits
    have hsome := dim?_eq_some_iff.mpr hdim
    rw [List.append_assoc, List.cons_append, dims?, if_pos rfl, List.singleton_append,
      dims?_some_append hdigits, List.nil_append, hsome, ih]
    rfl

theorem dimTexts_of_dims? {opened : Option (List Char)} {cs : List Char} {dims : List Dim}
    (h : dims? opened cs = some dims) :
    DimTexts (opened.elim cs fun before => '[' :: before ++ cs) dims := by
  fun_induction dims? opened cs generalizing dims with
  | case1 =>
    cases h
    exact .nil
  | case2 => cases h
  | case3 cs ih => exact ih h
  | case4 => cases h
  | case5 before cs ih =>
    simp only [Option.bind_eq_bind, Option.bind_eq_some_iff, Option.pure_def, Option.some.injEq] at h
    obtain ⟨dim, hdim, dims', hdims, rfl⟩ := h
    have hall := DimTexts.cons (dim?_eq_some_iff.mp hdim) (ih hdims)
    simpa using hall
  | case6 before c cs hclose hdigit ih =>
    have hrest := ih h
    simpa using hrest
  | case7 => cases h

theorem dims?_eq_some_iff {cs : List Char} {dims : List Dim} :
    dims? none cs = some dims ↔ DimTexts cs dims :=
  ⟨dimTexts_of_dims?, dims?_of_dimTexts⟩

theorem HasText.wrap {cs cs' : List Char} {ty : Ty} {dim : Dim} (h : HasText cs ty)
    (hdim : DimText cs' dim) : HasText (cs ++ cs') (ty.wrap dim) := by
  cases hdim with
  | array => exact h.array
  | fixedArray hdigits hpos hlt =>
    have hall := h.fixedArray hdigits hpos hlt
    rwa [List.append_assoc] at hall

theorem HasText.foldl_wrap {cs cs' : List Char} {ty : Ty} {dims : List Dim} (h : HasText cs ty)
    (hdims : DimTexts cs' dims) : HasText (cs ++ cs') (dims.foldl Ty.wrap ty) := by
  induction hdims generalizing cs ty with
  | nil => rwa [List.append_nil]
  | cons hdim _ ih =>
    rw [← List.append_assoc]
    exact ih (h.wrap hdim)

theorem HasText.exists_scalar {cs : List Char} {ty : Ty} (h : HasText cs ty) :
    ∃ name scalar suffixes dims, cs = name ++ suffixes ∧ ScalarText name scalar ∧
      DimTexts suffixes dims ∧ dims.foldl Ty.wrap scalar = ty := by
  induction h with
  | @scalar cs ty hscalar => exact ⟨cs, ty, [], [], (List.append_nil cs).symm, hscalar, .nil, rfl⟩
  | array _ ih =>
    obtain ⟨name, scalar, suffixes, dims, rfl, hscalar, hdims, rfl⟩ := ih
    refine ⟨name, scalar, _, _, List.append_assoc .., hscalar, hdims.concat .array, ?_⟩
    rw [List.foldl_concat]
    rfl
  | fixedArray _ hdigits hpos hlt ih =>
    obtain ⟨name, scalar, suffixes, dims, rfl, hscalar, hdims, rfl⟩ := ih
    refine ⟨name, scalar, _, _, ?_, hscalar, hdims.concat (.fixedArray hdigits hpos hlt), ?_⟩
    · simp only [List.append_assoc, List.cons_append]
    · rw [List.foldl_concat]
      rfl

theorem ScalarText.ne_bracket {cs : List Char} {ty : Ty} (h : ScalarText cs ty) :
    ∀ c ∈ cs, c ≠ '[' := by
  have hdigits {digits : List Char} {n : Nat} (h : Numeral digits n) : ∀ c ∈ digits, c ≠ '[' := by
    intro c hc heq
    exact absurd (heq ▸ h.isDigit c hc) (by decide)
  cases h with
  | address | bool | string | bytes | bareUint | bareInt => simp
  | fixedBytes h | uint h | int h => exact List.forall_mem_append.mpr ⟨by simp, hdigits h⟩

theorem DimTexts.head_eq {cs : List Char} {dims : List Dim} (h : DimTexts cs dims) :
    cs = [] ∨ ∃ rest, cs = '[' :: rest := by
  cases h with
  | nil => exact .inl rfl
  | cons hdim =>
    obtain ⟨digits, rfl, -⟩ := hdim.digits
    exact .inr ⟨_, rfl⟩

/-- A type text is cut at its first bracket. -/
theorem span_scalar {name suffixes : List Char} {scalar : Ty} {dims : List Dim}
    (hscalar : ScalarText name scalar) (hdims : DimTexts suffixes dims) :
    (name ++ suffixes).takeWhile (· ≠ '[') = name ∧
      (name ++ suffixes).dropWhile (· ≠ '[') = suffixes := by
  have hname : ∀ c ∈ name, decide (c ≠ '[') = true := fun c hc =>
    decide_eq_true (hscalar.ne_bracket c hc)
  apply span_append hname
  obtain rfl | ⟨rest, rfl⟩ := hdims.head_eq
  · simp
  · simp

theorem ofChars?_eq_some_iff {cs : List Char} {ty : Ty} :
    ofChars? cs = some ty ↔ HasText cs ty := by
  constructor
  · intro h
    simp only [ofChars?, Option.bind_eq_bind, Option.bind_eq_some_iff, Option.pure_def,
      Option.some.injEq] at h
    obtain ⟨scalar, hscalar, dims, hdims, rfl⟩ := h
    have hall := (HasText.scalar (scalar?_eq_some_iff.mp hscalar)).foldl_wrap
      (dims?_eq_some_iff.mp hdims)
    rwa [List.takeWhile_append_dropWhile] at hall
  · intro h
    obtain ⟨name, scalar, suffixes, dims, rfl, hscalar, hdims, rfl⟩ := h.exists_scalar
    obtain ⟨htake, hdrop⟩ := span_scalar hscalar hdims
    rw [ofChars?, htake, hdrop, scalar?_eq_some_iff.mpr hscalar, dims?_eq_some_iff.mpr hdims]
    rfl

theorem ofText_eq_ok_iff {raw : String} {ty : Ty} :
    ofText raw = .ok ty ↔ HasText raw.toList ty := by
  rw [ofText, ← ofChars?_eq_some_iff]
  cases ofChars? raw.toList <;> simp

theorem ofText_eq_error_iff {raw : String} {e : Failure} :
    ofText raw = .error e ↔ (¬ ∃ ty, HasText raw.toList ty) ∧ e = .unsupportedType raw := by
  simp only [ofText, ← ofChars?_eq_some_iff]
  cases ofChars? raw.toList <;> simp [eq_comm]

theorem ScalarText.proper {cs : List Char} {ty : Ty} (h : ScalarText cs ty) : ty.Proper := by
  cases h with
  | address | bool | string | bytes => trivial
  | bareUint | bareInt => exact (by decide : IntegerWidth 256)
  | fixedBytes _ hwidth | uint _ hwidth | int _ hwidth => exact hwidth

theorem HasText.proper {cs : List Char} {ty : Ty} (h : HasText cs ty) : ty.Proper := by
  induction h with
  | scalar h => exact h.proper
  | array _ ih => exact ih
  | fixedArray _ _ hpos hlt ih => exact ⟨ih, hpos, hlt⟩

theorem Proper.hasText {ty : Ty} (h : ty.Proper) : HasText ty.chars ty := by
  induction ty with
  | address => exact .scalar .address
  | bool => exact .scalar .bool
  | string => exact .scalar .string
  | bytes => exact .scalar .bytes
  | fixedBytes width => exact .scalar (.fixedBytes (numeral_toDigits width) h)
  | uint bits => exact .scalar (.uint (numeral_toDigits bits) h)
  | int bits => exact .scalar (.int (numeral_toDigits bits) h)
  | array element ih => exact (ih h).array
  | fixedArray element length ih =>
    exact (ih h.1).fixedArray (numeral_toDigits length) h.2.1 h.2.2

theorem Proper.ofText_text {ty : Ty} (h : ty.Proper) : ofText ty.text = .ok ty := by
  rw [ofText_eq_ok_iff, text, String.toList_ofList]
  exact h.hasText

/-- Exactly the texts of types are read, each as the type that it is a text of, and any other is
handed back. The canonical text of a type within its bounds is one of that type. -/
theorem ofText_reads_grammar :
    (∀ (raw : String) (ty : Ty), ofText raw = .ok ty ↔ HasText raw.toList ty) ∧
    (∀ (raw : String) (e : Failure), ofText raw = .error e ↔
      (¬ ∃ ty, HasText raw.toList ty) ∧ e = .unsupportedType raw) ∧
    ∀ ty : Ty, ty.Proper → ofText ty.text = .ok ty :=
  ⟨fun _ _ => ofText_eq_ok_iff, fun _ _ => ofText_eq_error_iff, fun _ h => h.ofText_text⟩

theorem ofText_reads_grammar_nested :
    let ty : Ty := .fixedArray (.array (.fixedArray (.int 16) 2)) 10
    ty.Proper ∧ ty.text = "int16[2][][10]" ∧ ofText ty.text = .ok ty := by
  intro ty
  have hproper : ty.Proper := by decide
  exact ⟨hproper, by decide, ofText_reads_grammar.2.2 ty hproper⟩

end CallBundle.Abi.Ty
