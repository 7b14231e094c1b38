import Mathlib
import CallBundle.Proofs.Abi.Grammar
import CallBundle.Signature

/-!
The form of a signature: a name, and in parentheses the texts of types with commas between them. A
text that is no signature fails with the first of its types that is unknown, or as a whole. Main
statement: `ofText_reads_written`.
-/

namespace CallBundle

namespace Abi.Ty

theorem isTypeCharacter_of_isDigit {c : Char} (h : c.isDigit) : Signature.isTypeCharacter c := by
  simp [Signature.isTypeCharacter, Signature.isWord, Char.isAlphanum, h]

theorem ScalarText.isTypeCharacter {cs : List Char} {ty : Ty} (h : ScalarText cs ty) :
    ∀ c ∈ cs, Signature.isTypeCharacter c := by
  have hdigits {digits : List Char} {n : Nat} (h : Numeral digits n) :
      ∀ c ∈ digits, Signature.isTypeCharacter c := fun c hc =>
    isTypeCharacter_of_isDigit (h.isDigit c hc)
  cases h with
  | address | bool | string | bytes | bareUint | bareInt => exact List.all_eq_true.mp rfl
  | fixedBytes h | uint h | int h =>
    exact List.forall_mem_append.mpr ⟨List.all_eq_true.mp rfl, hdigits h⟩

/-- The texts of types have characters of types only. -/
theorem HasText.isTypeCharacter {cs : List Char} {ty : Ty} (h : HasText cs ty) :
    ∀ c ∈ cs, Signature.isTypeCharacter c := by
  induction h with
  | scalar h => exact h.isTypeCharacter
  | array _ ih => exact List.forall_mem_append.mpr ⟨ih, List.all_eq_true.mp rfl⟩
  | fixedArray _ hdigits _ _ ih =>
    rw [List.append_assoc, List.cons_append, List.forall_mem_append, List.forall_mem_cons,
      List.forall_mem_append]
    exact ⟨ih, rfl, fun c hc => isTypeCharacter_of_isDigit (hdigits.isDigit c hc),
      List.all_eq_true.mp rfl⟩

theorem HasText.ne_nil {cs : List Char} {ty : Ty} (h : HasText cs ty) : cs ≠ [] := by
  cases h with
  | scalar h => cases h <;> simp
  | array | fixedArray => simp

end Abi.Ty

namespace Signature

section

variable {c : Char} {cs : List Char} {texts : List (List Char)}

/-- The pieces are those of the library's own splitter. -/
theorem pieces_eq_splitOn (cs : List Char) : pieces cs = cs.splitOn ',' := by
  induction cs with
  | nil => rfl
  | cons c cs ih =>
    rw [pieces, List.splitOn_cons_eq_if_modifyHead, ih]
    by_cases hc : c = ','
    · rw [if_pos hc, if_pos (beq_iff_eq.mpr hc)]
    · rw [if_neg hc, if_neg (mt beq_iff_eq.mp hc)]
      obtain ⟨piece, rest, h⟩ := List.exists_cons_of_ne_nil (List.splitOn_ne_nil ',' cs)
      rw [h]
      rfl

theorem mem_of_mem_pieces {piece : List Char} (hpiece : piece ∈ pieces cs) (hc : c ∈ piece) :
    c ∈ cs ∧ c ≠ ',' := by
  fun_induction pieces cs generalizing piece with
  | case1 =>
    rw [List.mem_singleton.mp hpiece] at hc
    cases hc
  | case2 cs ih =>
    rw [List.mem_cons] at hpiece
    obtain rfl | hpiece := hpiece
    · cases hc
    · exact (ih hpiece hc).imp_left (List.mem_cons_of_mem _)
  | case3 d cs hd =>
    rw [List.mem_singleton.mp hpiece, List.mem_singleton] at hc
    subst hc
    exact ⟨List.mem_cons_self, hd⟩
  | case4 d cs hd first rest hrest ih =>
    rw [hrest] at ih
    rw [List.mem_cons] at hpiece
    obtain rfl | hpiece := hpiece
    · rw [List.mem_cons] at hc
      obtain rfl | hc := hc
      · exact ⟨List.mem_cons_self, hd⟩
      · exact (ih List.mem_cons_self hc).imp_left (List.mem_cons_of_mem _)
    · exact (ih (List.mem_cons_of_mem _ hpiece) hc).imp_left (List.mem_cons_of_mem _)

theorem mem_intercalate (h : c ∈ [','].intercalate texts) :
    c = ',' ∨ ∃ text ∈ texts, c ∈ text := by
  induction texts with
  | nil => cases h
  | cons text texts ih =>
    cases texts with
    | nil =>
      rw [List.intercalate_singleton] at h
      exact .inr ⟨text, List.mem_singleton_self text, h⟩
    | cons text' texts =>
      rw [List.intercalate_cons_cons, List.mem_append, List.mem_append, List.mem_singleton] at h
      obtain (h | h) | h := h
      · exact .inr ⟨text, List.mem_cons_self, h⟩
      · exact .inl h
      · exact (ih h).imp_right fun ⟨t, ht, hc⟩ => ⟨t, List.mem_cons_of_mem _ ht, hc⟩

/-- The texts between the commas, of which there are none in an empty text. -/
def inputPieces (args : List Char) : List (List Char) := if args = [] then [] else pieces args

theorem intercalate_inputPieces (args : List Char) :
    [','].intercalate (inputPieces args) = args := by
  rw [inputPieces]
  split
  case isTrue h => rw [h, List.intercalate_nil]
  case isFalse => rw [pieces_eq_splitOn, List.intercalate_splitOn]

theorem inputPieces_intercalate (hcomma : ∀ text ∈ texts, ',' ∉ text) (hne : texts ≠ [[]]) :
    inputPieces ([','].intercalate texts) = texts := by
  rw [inputPieces]
  by_cases hnil : texts = []
  · rw [hnil, List.intercalate_nil, if_pos rfl]
  · have hargs : [','].intercalate texts ≠ [] := by
      match texts, hnil with
      | [text], _ => simpa using hne
      | text :: text' :: texts, _ => simp
    rw [if_neg hargs, pieces_eq_splitOn, List.splitOn_intercalate ',' hcomma hnil]

end

/-- A text that could be one of a type, by its characters, and is not. -/
structure Unknown (t : String) : Prop where
  ne_empty : t ≠ ""
  isTypeCharacter : ∀ c ∈ t.toList, isTypeCharacter c
  not_type : ¬ ∃ ty, Abi.Ty.ofText t = .ok ty

section

variable {raw t : String} {types before after : List String} {ty : Abi.Ty} {tys : List Abi.Ty}

theorem isTypeCharacter_of_ofText (h : Abi.Ty.ofText t = .ok ty) :
    ∀ c ∈ t.toList, isTypeCharacter c :=
  (Abi.Ty.ofText_eq_ok_iff.mp h).isTypeCharacter

theorem toList_ne_nil_of_ofText (h : Abi.Ty.ofText t = .ok ty) : t.toList ≠ [] :=
  (Abi.Ty.ofText_eq_ok_iff.mp h).ne_nil

theorem readInputs_cons_of_ofText (h : Abi.Ty.ofText t = .ok ty) (rest : List (List Char)) :
    readInputs raw (t.toList :: rest) = readInputs raw rest >>= fun tys => pure (ty :: tys) := by
  rw [readInputs, if_neg (toList_ne_nil_of_ofText h),
    if_pos (List.all_eq_true.mpr (isTypeCharacter_of_ofText h)), String.ofList_toList, h]
  rfl

theorem readInputs_cons_of_unknown (h : Unknown t) (rest : List (List Char)) :
    readInputs raw (t.toList :: rest) = .error (.unsupportedType t) := by
  have hofText : Abi.Ty.ofText t = .error (.unsupportedType t) :=
    Abi.Ty.ofText_eq_error_iff.mpr
      ⟨fun ⟨ty, hty⟩ => h.not_type ⟨ty, Abi.Ty.ofText_eq_ok_iff.mpr hty⟩, rfl⟩
  rw [readInputs, if_neg (mt String.toList_eq_nil_iff.mp h.ne_empty),
    if_pos (List.all_eq_true.mpr h.isTypeCharacter), String.ofList_toList, hofText]
  rfl

/-- What a text is to the reader: one of a type, or unknown, or of no form of a type at all. -/
theorem readInputs_cons_cases (raw t : String) (rest : List (List Char)) :
    (∃ ty, Abi.Ty.ofText t = .ok ty) ∨ Unknown t ∨
      ∃ fault, readInputs raw (t.toList :: rest) = .error (.invalidSignature raw fault) := by
  by_cases hty : ∃ ty, Abi.Ty.ofText t = .ok ty
  · exact .inl hty
  by_cases hnil : t = ""
  · exact .inr (.inr ⟨.emptyType, by rw [readInputs, if_pos (String.toList_eq_nil_iff.mpr hnil)]⟩)
  by_cases hall : t.toList.all isTypeCharacter
  · exact .inr (.inl ⟨hnil, List.all_eq_true.mp hall, hty⟩)
  · refine .inr (.inr ⟨.badTypeCharacter, ?_⟩)
    rw [readInputs, if_neg (mt String.toList_eq_nil_iff.mp hnil), if_neg hall]

theorem readInputs_of_ofText (h : List.Forall₂ (fun t ty => Abi.Ty.ofText t = .ok ty) types tys) :
    readInputs raw (types.map String.toList) = .ok tys := by
  induction h with
  | nil => rfl
  | cons ht _ ih =>
    rw [List.map_cons, readInputs_cons_of_ofText ht, ih]
    rfl

theorem types_of_ofText (h : List.Forall₂ (fun t ty => Abi.Ty.ofText t = .ok ty) types tys) :
    (∀ t ∈ types, ∃ ty, Abi.Ty.ofText t = .ok ty) ∧ ∀ ty ∈ tys, ty.Proper := by
  induction h with
  | nil => exact ⟨nofun, nofun⟩
  | @cons t ty types tys ht _ ih =>
    rw [List.forall_mem_cons, List.forall_mem_cons]
    exact ⟨⟨⟨ty, ht⟩, ih.1⟩, (Abi.Ty.ofText_eq_ok_iff.mp ht).proper, ih.2⟩

theorem readInputs_of_unknown (hbefore : ∀ t' ∈ before, ∃ ty, Abi.Ty.ofText t' = .ok ty)
    (h : Unknown t) :
    readInputs raw ((before ++ t :: after).map String.toList) = .error (.unsupportedType t) := by
  induction before with
  | nil => exact readInputs_cons_of_unknown h _
  | cons t' before ih =>
    rw [List.forall_mem_cons] at hbefore
    obtain ⟨⟨ty, hty⟩, hbefore⟩ := hbefore
    rw [List.cons_append, List.map_cons, readInputs_cons_of_ofText hty, ih hbefore]
    rfl

/-- All texts are of types, or one after such texts is unknown, or the signature is invalid. -/
theorem readInputs_cases (raw : String) (types : List String) :
    (∃ tys, List.Forall₂ (fun t ty => Abi.Ty.ofText t = .ok ty) types tys) ∨
      (∃ before t after, types = before ++ t :: after ∧
        (∀ t' ∈ before, ∃ ty, Abi.Ty.ofText t' = .ok ty) ∧ Unknown t) ∨
      ∃ fault, readInputs raw (types.map String.toList) =
        .error (.invalidSignature raw fault) := by
  induction types with
  | nil => exact .inl ⟨[], .nil⟩
  | cons t types ih =>
    obtain ⟨ty, hty⟩ | hunknown | hinvalid :=
      readInputs_cons_cases raw t (types.map String.toList)
    · obtain ⟨tys, htys⟩ | ⟨before, t', after, rfl, hbefore, ht'⟩ | ⟨fault, hfault⟩ := ih
      · exact .inl ⟨ty :: tys, .cons hty htys⟩
      · exact .inr (.inl ⟨t :: before, t', after, rfl,
          List.forall_mem_cons.mpr ⟨⟨ty, hty⟩, hbefore⟩, ht'⟩)
      · refine .inr (.inr ⟨fault, ?_⟩)
        rw [List.map_cons, readInputs_cons_of_ofText hty, hfault]
        rfl
    · exact .inr (.inl ⟨[], t, types, rfl, nofun, hunknown⟩)
    · exact .inr (.inr hinvalid)

end

/-- A name and parentheses around a text that has none. -/
structure Framed (raw : String) (name args : List Char) : Prop where
  toList_eq : raw.toList = name ++ '(' :: (args ++ [')'])
  ne_nil : name ≠ []
  isWord : ∀ c ∈ name, isWord c
  noParens : ∀ c ∈ args, c ≠ '(' ∧ c ≠ ')'

theorem unclose?_eq_some_iff {cs args : List Char} :
    unclose? cs = some args ↔ cs = args ++ [')'] := by
  rw [unclose?]
  constructor
  · intro h
    split at h
    case isTrue hlast =>
      cases h
      exact (List.dropLast_append_getLast? _ hlast).symm
    case isFalse => cases h
  · rintro rfl
    simp

theorem any_parens_iff {args : List Char} :
    args.any (fun c => c == '(' || c == ')') ↔ ¬ ∀ c ∈ args, c ≠ '(' ∧ c ≠ ')' := by
  simp [← not_or]

theorem Framed.ofText_eq {raw : String} {name args : List Char} (h : Framed raw name args) :
    ofText raw = readInputs raw (inputPieces args) >>= fun tys =>
      pure ⟨String.ofList name, tys, raw⟩ := by
  have hname : ∀ c ∈ name, decide (c ≠ '(') = true := fun c hc =>
    decide_eq_true fun heq => absurd (heq ▸ h.isWord c hc) (by decide)
  have hparen : ∀ c, ('(' :: (args ++ [')'])).head? = some c → decide (c ≠ '(') = false := by simp
  have hspan := span_append hname hparen
  rw [← h.toList_eq] at hspan
  have hword : name.all Signature.isWord = true := List.all_eq_true.mpr h.isWord
  have hparens := mt any_parens_iff.mp (not_not.mpr h.noParens)
  have hunclose := unclose?_eq_some_iff.mpr (rfl : args ++ [')'] = args ++ [')'])
  simp only [ofText, hspan.1, hspan.2, if_neg h.ne_nil, hword, hunclose, if_neg hparens]
  rfl

theorem framed_or_invalid (raw : String) :
    (∃ name args, Framed raw name args) ∨
      ∃ fault, ofText raw = .error (.invalidSignature raw fault) := by
  have hsplit := List.takeWhile_append_dropWhile (p := fun c => decide (c ≠ '(')) (l := raw.toList)
  have hhead : ∀ c, (raw.toList.dropWhile (fun c => decide (c ≠ '('))).head? = some c → c = '(' :=
    fun _ => head?_dropWhile_ne
  unfold ofText
  generalize raw.toList.takeWhile (fun c => decide (c ≠ '(')) = name at hsplit ⊢
  generalize raw.toList.dropWhile (fun c => decide (c ≠ '(')) = tail at hsplit hhead ⊢
  cases tail with
  | nil => exact .inr ⟨.noOpenParen, rfl⟩
  | cons c rest =>
    obtain rfl := hhead c rfl
    by_cases hnil : name = []
    · exact .inr ⟨.emptyName, if_pos hnil⟩
    by_cases hword : name.all isWord
    case neg => exact .inr ⟨.badName, by simp [hnil, hword]⟩
    cases hunclose : unclose? rest with
    | none => exact .inr ⟨.noCloseParen, by simp [hnil, hword, hunclose]⟩
    | some args =>
      by_cases hparens : args.any fun c => c == '(' || c == ')'
      · exact .inr ⟨.nestedParens, by simp only [hnil, hword, hunclose, hparens]; rfl⟩
      · rw [unclose?_eq_some_iff.mp hunclose] at hsplit
        exact .inl ⟨name, args, hsplit.symm, hnil, List.all_eq_true.mp hword,
          not_not.mp (mt any_parens_iff.mpr hparens)⟩

/-- The names that a function can have. -/
def IsName (name : String) : Prop := name ≠ "" ∧ ∀ c ∈ name.toList, isWord c

/-- A name and texts spelled out, with commas between the texts and parentheses around them. -/
def written (name : String) (types : List String) : String :=
  name ++ "(" ++ ",".intercalate types ++ ")"

/-- A text is a name and texts spelled out, of which it gives all back. -/
structure Spells (raw name : String) (types : List String) : Prop where
  eq_written : raw = written name types
  isName : IsName name
  noSeparator : ∀ t ∈ types, ∀ c ∈ t.toList, c ≠ '(' ∧ c ≠ ')' ∧ c ≠ ','
  /-- Nothing in parentheses is no text, and not an empty one. -/
  ne_empty : types ≠ [""]

/-- A text is this signature spelled out, with a text of its type for every input. -/
structure Written (raw : String) (signature : Signature) : Prop where
  isName : IsName signature.name
  text_eq : signature.text = raw
  inputs : ∃ types, raw = written signature.name types ∧
    List.Forall₂ (fun t ty => Abi.Ty.ofText t = .ok ty) types signature.inputs

/-- A text is a name and texts spelled out, of which the first that is not of a type is unknown. -/
def Unsupported (raw t : String) : Prop :=
  ∃ name before after, Spells raw name (before ++ t :: after) ∧
    (∀ t' ∈ before, ∃ ty, Abi.Ty.ofText t' = .ok ty) ∧ Unknown t

theorem toList_written (name : String) (types : List String) :
    (written name types).toList =
      name.toList ++ '(' :: ([','].intercalate (types.map String.toList) ++ [')']) := by
  simp [written, String.toList_intercalate]

theorem noSeparator_of_isTypeCharacter {c : Char} (h : isTypeCharacter c) :
    c ≠ '(' ∧ c ≠ ')' ∧ c ≠ ',' := by
  refine ⟨?_, ?_, ?_⟩ <;> rintro rfl <;> exact absurd h (by decide)

section

variable {raw name t : String} {types : List String} {signature : Signature}

theorem Spells.framed (h : Spells raw name types) :
    Framed raw name.toList ([','].intercalate (types.map String.toList)) where
  toList_eq := by rw [h.eq_written, toList_written]
  ne_nil := mt String.toList_eq_nil_iff.mp h.isName.1
  isWord := h.isName.2
  noParens c hc := by
    obtain rfl | ⟨text, htext, hc⟩ := mem_intercalate hc
    · decide
    · obtain ⟨t, ht, rfl⟩ := List.mem_map.mp htext
      exact ⟨(h.noSeparator t ht c hc).1, (h.noSeparator t ht c hc).2.1⟩

theorem Spells.inputPieces_eq (h : Spells raw name types) :
    inputPieces ([','].intercalate (types.map String.toList)) = types.map String.toList := by
  apply inputPieces_intercalate
  · intro text htext hcomma
    obtain ⟨t, ht, rfl⟩ := List.mem_map.mp htext
    exact (h.noSeparator t ht ',' hcomma).2.2 rfl
  · intro hsingle
    obtain ⟨t, rfl, ht⟩ := List.map_eq_singleton_iff.mp hsingle
    exact h.ne_empty (by rw [String.toList_eq_nil_iff.mp ht])

theorem Spells.ofText_eq (h : Spells raw name types) :
    ofText raw = readInputs raw (types.map String.toList) >>= fun tys => pure ⟨name, tys, raw⟩ := by
  rw [h.framed.ofText_eq, h.inputPieces_eq, String.ofList_toList]

theorem Framed.spells {name args : List Char} (h : Framed raw name args) :
    Spells raw (String.ofList name) ((inputPieces args).map String.ofList) where
  eq_written := by
    have htoList : String.toList ∘ String.ofList = id := funext fun _ => String.toList_ofList
    rw [← String.toList_inj, toList_written, List.map_map, htoList, List.map_id,
      intercalate_inputPieces, String.toList_ofList, h.toList_eq]
  isName := by
    refine ⟨fun hempty => h.ne_nil ?_, ?_⟩
    · rw [← String.toList_ofList (l := name), hempty, String.toList_empty]
    · rw [String.toList_ofList]
      exact h.isWord
  noSeparator t ht c hc := by
    obtain ⟨piece, hpiece, rfl⟩ := List.mem_map.mp ht
    rw [String.toList_ofList] at hc
    rw [inputPieces] at hpiece
    split at hpiece
    case isTrue => cases hpiece
    case isFalse =>
      obtain ⟨hargs, hcomma⟩ := mem_of_mem_pieces hpiece hc
      exact ⟨(h.noParens c hargs).1, (h.noParens c hargs).2, hcomma⟩
  ne_empty hsingle := by
    obtain ⟨piece, hpieces, hpiece⟩ := List.map_eq_singleton_iff.mp hsingle
    have hnil : piece = [] := by
      rw [← String.toList_ofList (l := piece), hpiece, String.toList_empty]
    -- The pieces put together again would be the empty text, which has none.
    have hargs := intercalate_inputPieces args
    rw [hpieces, hnil, List.intercalate_singleton] at hargs
    rw [← hargs] at hpieces
    cases hpieces

theorem spells_or_invalid (raw : String) :
    (∃ name types, Spells raw name types) ∨
      ∃ fault, ofText raw = .error (.invalidSignature raw fault) := by
  obtain ⟨name, args, h⟩ | hinvalid := framed_or_invalid raw
  · exact .inl ⟨_, _, h.spells⟩
  · exact .inr hinvalid

theorem Written.spells (h : Written raw signature) : ∃ types, Spells raw signature.name types ∧
    List.Forall₂ (fun t ty => Abi.Ty.ofText t = .ok ty) types signature.inputs := by
  obtain ⟨types, hraw, htypes⟩ := h.inputs
  have hread := (types_of_ofText htypes).1
  refine ⟨types, ⟨hraw, h.isName, ?_, ?_⟩, htypes⟩
  · intro t ht c hc
    obtain ⟨ty, hty⟩ := hread t ht
    exact noSeparator_of_isTypeCharacter (isTypeCharacter_of_ofText hty c hc)
  · rintro rfl
    obtain ⟨ty, hty⟩ := hread "" (List.mem_singleton_self "")
    exact toList_ne_nil_of_ofText hty rfl

theorem Written.ofText_eq (h : Written raw signature) : ofText raw = .ok signature := by
  obtain ⟨types, hspells, htypes⟩ := h.spells
  rw [hspells.ofText_eq, readInputs_of_ofText htypes, ← h.text_eq]
  rfl

theorem Unsupported.ofText_eq (h : Unsupported raw t) :
    ofText raw = .error (.unsupportedType t) := by
  obtain ⟨name, before, after, hspells, hbefore, ht⟩ := h
  rw [hspells.ofText_eq, readInputs_of_unknown hbefore ht]
  rfl

theorem ofText_cases (raw : String) :
    (∃ signature, Written raw signature) ∨ (∃ t, Unsupported raw t) ∨
      ∃ fault, ofText raw = .error (.invalidSignature raw fault) := by
  obtain ⟨name, types, h⟩ | hinvalid := spells_or_invalid raw
  · obtain ⟨tys, htys⟩ | ⟨before, t, after, rfl, hbefore, ht⟩ | ⟨fault, hfault⟩ :=
      readInputs_cases raw types
    · exact .inl ⟨⟨name, tys, raw⟩, h.isName, rfl, types, h.eq_written, htys⟩
    · exact .inr (.inl ⟨t, name, before, after, h, hbefore, ht⟩)
    · refine .inr (.inr ⟨fault, ?_⟩)
      rw [h.ofText_eq, hfault]
      rfl
  · exact .inr (.inr hinvalid)

theorem ofText_eq_ok_iff : ofText raw = .ok signature ↔ Written raw signature := by
  refine ⟨fun hok => ?_, Written.ofText_eq⟩
  obtain ⟨signature', h⟩ | ⟨t, h⟩ | ⟨fault, h⟩ := ofText_cases raw
  · cases h.ofText_eq.symm.trans hok
    exact h
  · cases h.ofText_eq.symm.trans hok
  · cases h.symm.trans hok

theorem ofText_eq_unsupportedType_iff :
    ofText raw = .error (.unsupportedType t) ↔ Unsupported raw t := by
  refine ⟨fun herror => ?_, Unsupported.ofText_eq⟩
  obtain ⟨signature, h⟩ | ⟨t', h⟩ | ⟨fault, h⟩ := ofText_cases raw
  · cases h.ofText_eq.symm.trans herror
  · cases h.ofText_eq.symm.trans herror
    exact h
  · cases h.symm.trans herror

/-- The types in a signature that has been read are within their bounds. -/
theorem proper_of_ofText (h : ofText raw = .ok signature) :
    ∀ ty ∈ signature.inputs, ty.Proper := by
  obtain ⟨types, -, htypes⟩ := (ofText_eq_ok_iff.mp h).inputs
  exact (types_of_ofText htypes).2

theorem written_text (hname : IsName signature.name) (h : ∀ ty ∈ signature.inputs, ty.Proper) :
    let raw := written signature.name (signature.inputs.map Abi.Ty.text)
    Written raw { signature with text := raw } where
  isName := hname
  text_eq := rfl
  inputs := by
    refine ⟨signature.inputs.map Abi.Ty.text, rfl, ?_⟩
    rw [List.forall₂_map_left_iff, List.forall₂_same]
    exact fun ty hty => (h ty hty).ofText_text

end

/-- Exactly the signatures spelled out are read, each as itself. A text with a type that is unknown
fails with the first such, and any other fails as a whole. What is read is read again when its
types are spelled canonically. -/
theorem ofText_reads_written :
    (∀ (raw : String) (signature : Signature),
      ofText raw = .ok signature ↔ Written raw signature) ∧
    (∀ raw t : String, ofText raw = .error (.unsupportedType t) ↔ Unsupported raw t) ∧
    (∀ raw : String, (¬ ∃ signature, Written raw signature) → (¬ ∃ t, Unsupported raw t) →
      ∃ fault, ofText raw = .error (.invalidSignature raw fault)) ∧
    ∀ (raw : String) (signature : Signature), ofText raw = .ok signature →
      let canonical := written signature.name (signature.inputs.map Abi.Ty.text)
      ofText canonical = .ok { signature with text := canonical } := by
  refine ⟨fun _ _ => ofText_eq_ok_iff, fun _ _ => ofText_eq_unsupportedType_iff,
    fun raw hwritten hunsupported => ?_, fun raw signature hok => ?_⟩
  · exact ((ofText_cases raw).resolve_left hwritten).resolve_left hunsupported
  · have hname := (ofText_eq_ok_iff.mp hok).isName
    exact (written_text hname (proper_of_ofText hok)).ofText_eq

theorem ofText_reads_written_mint :
    ofText "mint(address,uint[][3])" =
      .ok ⟨"mint", [.address, .fixedArray (.array (.uint 256)) 3], "mint(address,uint[][3])"⟩ ∧
    ofText "mint(address,uint256[][3])" =
      .ok ⟨"mint", [.address, .fixedArray (.array (.uint 256)) 3], "mint(address,uint256[][3])"⟩ ∧
    ∃ fault, ofText "mint(uint,)" = .error (.invalidSignature "mint(uint,)" fault) := by
  have hraw : ofText "mint(address,uint[][3])" =
      .ok ⟨"mint", [.address, .fixedArray (.array (.uint 256)) 3], "mint(address,uint[][3])"⟩ := by
    with_unfolding_all rfl
  have hcanonical :
      written "mint" ([.address, .fixedArray (.array (.uint 256)) 3].map Abi.Ty.text) =
        "mint(address,uint256[][3])" := by decide +kernel
  have hagain := ofText_reads_written.2.2.2 _ _ hraw
  rw [hcanonical] at hagain
  have hinvalid : ofText "mint(uint,)" = .error (.invalidSignature "mint(uint,)" .emptyType) := by
    with_unfolding_all rfl
  refine ⟨hraw, hagain, ofText_reads_written.2.2.1 "mint(uint,)" ?_ ?_⟩
  · rintro ⟨signature, h⟩
    cases hinvalid.symm.trans h.ofText_eq
  · rintro ⟨t, h⟩
    cases hinvalid.symm.trans h.ofText_eq

end Signature

end CallBundle
