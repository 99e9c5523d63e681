import CanonicalTokens.Literal
import Mathlib.Data.List.TakeWhile

/-!
# Numerals and their classes

The numerals of C++ by their productions, from single digits up: runs of digits with separators in
them, exponents with a sign, suffixes, and four radixes. The text of a number is judged by what
follows its leading digits, and for every production this is enough. A point or an exponent behind
decimal digits makes a floating-point numeral. Behind hexadecimal digits, where `e` is a digit, it
takes a binary exponent.

All of this is about unsigned numerals. A grammar may let a number begin with a sign, and a sign is
no leading digit: a signed number counts as an integer, whatever follows.
-/

namespace CanonicalTokens

namespace Literal

/-! ### The grammar of numerals -/

def isOctalDigit (character : Char) : Bool :=
  '0' ≤ character && character ≤ '7'

def isBinaryDigit (character : Char) : Bool :=
  character = '0' || character = '1'

def isHexadecimalDigit (character : Char) : Bool :=
  character.isDigit || ('a' ≤ character && character ≤ 'f') ||
    ('A' ≤ character && character ≤ 'F')

/-- One digit or more, with at most one separator between two of them. -/
inductive IsDigits (isDigit : Char → Bool) : List Char → Prop
  | last {digit : Char} (hdigit : isDigit digit) : IsDigits isDigit [digit]
  | cons {digit : Char} {rest : List Char} (hdigit : isDigit digit)
      (hrest : IsDigits isDigit rest) : IsDigits isDigit (digit :: rest)
  | separated {digit : Char} {rest : List Char} (hdigit : isDigit digit)
      (hrest : IsDigits isDigit rest) : IsDigits isDigit (digit :: '\'' :: rest)

/-- Digits with a point between them, in front of them or behind them. -/
inductive IsPointed (isDigit : Char → Bool) : List Char → Prop
  | between {whole fraction : List Char} (hwhole : IsDigits isDigit whole)
      (hfraction : IsDigits isDigit fraction) : IsPointed isDigit (whole ++ '.' :: fraction)
  | before {fraction : List Char} (hfraction : IsDigits isDigit fraction) :
      IsPointed isDigit ('.' :: fraction)
  | behind {whole : List Char} (hwhole : IsDigits isDigit whole) :
      IsPointed isDigit (whole ++ ['.'])

inductive IsExponent (small capital : Char) : List Char → Prop
  | unsigned {mark : Char} {digits : List Char} (hmark : mark = small ∨ mark = capital)
      (hdigits : IsDigits Char.isDigit digits) : IsExponent small capital (mark :: digits)
  | signed {mark sign : Char} {digits : List Char} (hmark : mark = small ∨ mark = capital)
      (hsign : sign = '+' ∨ sign = '-') (hdigits : IsDigits Char.isDigit digits) :
      IsExponent small capital (mark :: sign :: digits)

def floatingSuffixes : List String :=
  ["", "f", "F", "l", "L", "f16", "F16", "f32", "F32", "f64", "F64", "f128", "F128", "bf16",
    "BF16"]

def IsIntegerSuffix (suffix : List Char) : Prop :=
  ∀ letter ∈ suffix, letter ∈ ['u', 'U', 'l', 'L', 'z', 'Z']

inductive IsFloatingNumeral : List Char → Prop
  | pointed {significand exponent : List Char} {suffix : String}
      (hsignificand : IsPointed Char.isDigit significand)
      (hexponent : exponent = [] ∨ IsExponent 'e' 'E' exponent)
      (hsuffix : suffix ∈ floatingSuffixes) :
      IsFloatingNumeral (significand ++ (exponent ++ suffix.toList))
  | whole {significand exponent : List Char} {suffix : String}
      (hsignificand : IsDigits Char.isDigit significand)
      (hexponent : IsExponent 'e' 'E' exponent) (hsuffix : suffix ∈ floatingSuffixes) :
      IsFloatingNumeral (significand ++ (exponent ++ suffix.toList))
  | hexadecimal {mark : Char} {significand exponent : List Char} {suffix : String}
      (hmark : mark = 'x' ∨ mark = 'X')
      (hsignificand : IsDigits isHexadecimalDigit significand ∨
        IsPointed isHexadecimalDigit significand)
      (hexponent : IsExponent 'p' 'P' exponent) (hsuffix : suffix ∈ floatingSuffixes) :
      IsFloatingNumeral ('0' :: mark :: (significand ++ (exponent ++ suffix.toList)))

/-- The integer numerals without a sign. Decimal ones do not begin with a zero, octal ones do. -/
inductive IsIntegerNumeral : List Char → Prop
  | decimal {digits suffix : List Char} (hdigits : IsDigits Char.isDigit digits)
      (hfirst : digits.head? ≠ some '0') (hsuffix : IsIntegerSuffix suffix) :
      IsIntegerNumeral (digits ++ suffix)
  | octal {digits suffix : List Char} (hdigits : IsDigits isOctalDigit digits)
      (hfirst : digits.head? = some '0') (hsuffix : IsIntegerSuffix suffix) :
      IsIntegerNumeral (digits ++ suffix)
  | binary {mark : Char} {digits suffix : List Char} (hmark : mark = 'b' ∨ mark = 'B')
      (hdigits : IsDigits isBinaryDigit digits) (hsuffix : IsIntegerSuffix suffix) :
      IsIntegerNumeral ('0' :: mark :: (digits ++ suffix))
  | hexadecimal {mark : Char} {digits suffix : List Char} (hmark : mark = 'x' ∨ mark = 'X')
      (hdigits : IsDigits isHexadecimalDigit digits) (hsuffix : IsIntegerSuffix suffix) :
      IsIntegerNumeral ('0' :: mark :: (digits ++ suffix))

/-! ### Leading digits -/

variable {isDigit inClass : Char → Bool} {digits rest suffix : List Char}

theorem IsDigits.ne_nil (hdigits : IsDigits isDigit digits) : digits ≠ [] := by
  cases hdigits <;> exact List.cons_ne_nil _ _

/-- Digits and separators all belong to a class that has both. -/
theorem IsDigits.forall_mem (hdigits : IsDigits isDigit digits)
    (hclass : ∀ character, isDigit character → inClass character)
    (hseparator : inClass '\'') : ∀ character ∈ digits, inClass character := by
  induction hdigits with
  | last hdigit => exact List.forall_mem_singleton.mpr (hclass _ hdigit)
  | cons hdigit _ ih => exact List.forall_mem_cons.mpr ⟨hclass _ hdigit, ih⟩
  | separated hdigit _ ih =>
    exact List.forall_mem_cons.mpr ⟨hclass _ hdigit, List.forall_mem_cons.mpr ⟨hseparator, ih⟩⟩

def EndsClass (inClass : Char → Bool) (rest : List Char) : Prop :=
  ∀ character, rest.head? = some character → inClass character = false

theorem dropWhile_of_endsClass (hrest : EndsClass inClass rest) :
    rest.dropWhile inClass = rest := by
  cases rest with
  | nil => rfl
  | cons character rest =>
    rw [List.dropWhile_cons_of_neg]
    simp [hrest character rfl]

theorem takeWhile_of_endsClass (hrest : EndsClass inClass rest) :
    rest.takeWhile inClass = [] := by
  cases rest with
  | nil => rfl
  | cons character rest =>
    rw [List.takeWhile_cons_of_neg]
    simp [hrest character rfl]

theorem dropWhile_digits (hdigits : ∀ character ∈ digits, inClass character)
    (hrest : EndsClass inClass rest) : (digits ++ rest).dropWhile inClass = rest := by
  rw [List.dropWhile_append_of_pos hdigits, dropWhile_of_endsClass hrest]

theorem hasPoint_digits (hdigits : ∀ character ∈ digits, isDecimal character)
    (hrest : EndsClass isDecimal rest) : hasPoint (digits ++ rest) ↔ rest.head? = some '.' := by
  rw [hasPoint, dropWhile_digits hdigits hrest, decide_eq_true_eq]

theorem hasExponent_digits (hdigits : ∀ character ∈ digits, isDecimal character)
    (hrest : EndsClass isDecimal rest) :
    hasExponent (digits ++ rest) ↔ digits ≠ [] ∧ startsWithLetter 'e' 'E' rest := by
  rw [hasExponent, dropWhile_digits hdigits hrest, List.takeWhile_append_of_pos hdigits,
    takeWhile_of_endsClass hrest, List.append_nil]
  simp

theorem endsClass_cons {character : Char} (hcharacter : inClass character = false)
    (rest : List Char) : EndsClass inClass (character :: rest) := by
  intro first hfirst
  obtain rfl : character = first := Option.some.inj hfirst
  exact hcharacter

/-- Behind hexadecimal digits and a point, the exponent is looked for behind the fraction. -/
theorem isHexadecimalFloat_point {mark : Char} (hmark : mark = 'x' ∨ mark = 'X')
    (hdigits : ∀ character ∈ digits, isHexadecimal character) (fraction : List Char) :
    isHexadecimalFloat ('0' :: mark :: (digits ++ '.' :: fraction)) =
      startsWithLetter 'p' 'P' (fraction.dropWhile isHexadecimal) := by
  have hradix : (mark = 'x' || mark = 'X') = true := by simpa using hmark
  rw [isHexadecimalFloat, hradix, Bool.true_and,
    dropWhile_digits hdigits (endsClass_cons (by decide) fraction)]
  rfl

/-- Without a point, the exponent is looked for behind the digits. -/
theorem isHexadecimalFloat_digits {mark : Char} (hmark : mark = 'x' ∨ mark = 'X')
    (hdigits : ∀ character ∈ digits, isHexadecimal character)
    (hrest : EndsClass isHexadecimal rest) (hpoint : rest.head? ≠ some '.') :
    isHexadecimalFloat ('0' :: mark :: (digits ++ rest)) = startsWithLetter 'p' 'P' rest := by
  have hradix : (mark = 'x' || mark = 'X') = true := by simpa using hmark
  rw [isHexadecimalFloat, hradix, Bool.true_and, dropWhile_digits hdigits hrest]
  split
  next fraction => exact absurd rfl hpoint
  next => rfl

theorem isHexadecimalFloat_of_not_mem {text : List Char} (hsmall : 'x' ∉ text)
    (hcapital : 'X' ∉ text) : isHexadecimalFloat text = false := by
  unfold isHexadecimalFloat
  split
  next mark rest =>
    have hmark : mark ≠ 'x' ∧ mark ≠ 'X' := by
      constructor <;> rintro rfl <;> simp_all
    simp [hmark]
  next => rfl

/-! ### Floating-point numerals -/

variable {significand exponent : List Char} {small capital : Char}

theorem IsExponent.exists_cons (hexponent : IsExponent small capital exponent) :
    ∃ mark digits, exponent = mark :: digits ∧ (mark = small ∨ mark = capital) := by
  cases hexponent with
  | unsigned hmark _ => exact ⟨_, _, rfl, hmark⟩
  | signed hmark _ _ => exact ⟨_, _, rfl, hmark⟩

theorem IsExponent.startsWithLetter (hexponent : IsExponent small capital exponent)
    (rest : List Char) : startsWithLetter small capital (exponent ++ rest) := by
  obtain ⟨mark, digits, rfl, hmark⟩ := hexponent.exists_cons
  simpa [Literal.startsWithLetter] using hmark

theorem IsExponent.endsClass (hexponent : IsExponent small capital exponent)
    (hsmall : inClass small = false) (hcapital : inClass capital = false) (rest : List Char) :
    EndsClass inClass (exponent ++ rest) := by
  obtain ⟨mark, digits, rfl, hmark⟩ := hexponent.exists_cons
  intro character hcharacter
  obtain rfl : mark = character := Option.some.inj hcharacter
  rcases hmark with rfl | rfl
  · exact hsmall
  · exact hcapital

/-- A pointed significand by its parts, either of which may be empty. -/
theorem IsPointed.exists_parts (hpointed : IsPointed isDigit significand)
    (hclass : ∀ character, isDigit character → inClass character) (hseparator : inClass '\'') :
    ∃ whole fraction, significand = whole ++ '.' :: fraction ∧
      (∀ character ∈ whole, inClass character) ∧ ∀ character ∈ fraction, inClass character := by
  cases hpointed with
  | between hwhole hfraction =>
    exact ⟨_, _, rfl, hwhole.forall_mem hclass hseparator, hfraction.forall_mem hclass hseparator⟩
  | before hfraction =>
    exact ⟨[], _, rfl, List.forall_mem_nil _, hfraction.forall_mem hclass hseparator⟩
  | behind hwhole =>
    exact ⟨_, [], rfl, hwhole.forall_mem hclass hseparator, List.forall_mem_nil _⟩

theorem isDecimal_of_isDigit (character : Char) (hdigit : character.isDigit) :
    isDecimal character := by
  simp [isDecimal, hdigit]

theorem isDecimal_of_isOctalDigit (character : Char) (hdigit : isOctalDigit character) :
    isDecimal character := by
  apply isDecimal_of_isDigit
  simp only [isOctalDigit, Bool.and_eq_true, decide_eq_true_eq] at hdigit
  simp only [Char.isDigit, Bool.and_eq_true, decide_eq_true_eq]
  exact ⟨hdigit.1, Nat.le_trans hdigit.2 (by decide)⟩

theorem isHexadecimal_of_isHexadecimalDigit (character : Char)
    (hdigit : isHexadecimalDigit character) : isHexadecimal character := by
  simp only [isHexadecimalDigit, Bool.or_eq_true] at hdigit
  simp only [isHexadecimal, isDecimal, Bool.or_eq_true]
  rcases hdigit with (hdigit | hsmall) | hcapital
  · exact Or.inl (Or.inl (Or.inl hdigit))
  · exact Or.inl (Or.inr hsmall)
  · exact Or.inr hcapital

theorem hasPoint_of_pointed (hpointed : IsPointed Char.isDigit significand) (rest : List Char) :
    hasPoint (significand ++ rest) := by
  obtain ⟨whole, fraction, rfl, hwhole, -⟩ :=
    hpointed.exists_parts isDecimal_of_isDigit (by decide)
  rw [List.append_assoc, List.cons_append]
  exact (hasPoint_digits hwhole (endsClass_cons (by decide) _)).mpr rfl

theorem hasExponent_of_digits (hdigits : IsDigits Char.isDigit digits)
    (hexponent : IsExponent 'e' 'E' exponent) (rest : List Char) :
    hasExponent (digits ++ (exponent ++ rest)) := by
  have hdecimal := hdigits.forall_mem isDecimal_of_isDigit (by decide)
  have hends : EndsClass isDecimal (exponent ++ rest) :=
    hexponent.endsClass (by decide) (by decide) rest
  exact (hasExponent_digits hdecimal hends).mpr ⟨hdigits.ne_nil, hexponent.startsWithLetter rest⟩

/-- Hexadecimal digits with a binary exponent are a floating-point number, with or without a point
in them. -/
theorem isHexadecimalFloat_of_exponent {mark : Char} (hmark : mark = 'x' ∨ mark = 'X')
    (hsignificand : IsDigits isHexadecimalDigit significand ∨
      IsPointed isHexadecimalDigit significand)
    (hexponent : IsExponent 'p' 'P' exponent) (rest : List Char) :
    isHexadecimalFloat ('0' :: mark :: (significand ++ (exponent ++ rest))) := by
  have hends : EndsClass isHexadecimal (exponent ++ rest) :=
    hexponent.endsClass (by decide) (by decide) rest
  rcases hsignificand with hdigits | hpointed
  · have hclass := hdigits.forall_mem isHexadecimal_of_isHexadecimalDigit (by decide)
    have hpoint : (exponent ++ rest).head? ≠ some '.' := by
      obtain ⟨first, digits, rfl, rfl | rfl⟩ := hexponent.exists_cons <;> simp
    rw [isHexadecimalFloat_digits hmark hclass hends hpoint]
    exact hexponent.startsWithLetter rest
  · obtain ⟨whole, fraction, rfl, hwhole, hfraction⟩ :=
      hpointed.exists_parts isHexadecimal_of_isHexadecimalDigit (by decide)
    rw [List.append_assoc, List.cons_append, isHexadecimalFloat_point hmark hwhole,
      dropWhile_digits hfraction hends]
    exact hexponent.startsWithLetter rest

theorem isFloating_of_isFloatingNumeral {text : List Char} (hnumeral : IsFloatingNumeral text) :
    isFloating text := by
  simp only [isFloating, Bool.or_eq_true]
  cases hnumeral with
  | pointed hsignificand _ _ => exact Or.inl (Or.inr (hasPoint_of_pointed hsignificand _))
  | whole hsignificand hexponent _ => exact Or.inr (hasExponent_of_digits hsignificand hexponent _)
  | hexadecimal hmark hsignificand hexponent _ =>
    exact Or.inl (Or.inl (isHexadecimalFloat_of_exponent hmark hsignificand hexponent _))

/-! ### Integer numerals -/

theorem IsIntegerSuffix.head {property : Char → Prop} (hsuffix : IsIntegerSuffix suffix)
    (hletters : ∀ letter ∈ ['u', 'U', 'l', 'L', 'z', 'Z'], property letter) :
    ∀ letter, suffix.head? = some letter → property letter :=
  fun letter hletter => hletters letter (hsuffix letter (List.mem_of_mem_head? hletter))

theorem startsWithLetter_eq_false {text : List Char} (hsmall : text.head? ≠ some small)
    (hcapital : text.head? ≠ some capital) : startsWithLetter small capital text = false := by
  cases text with
  | nil => rfl
  | cons first rest =>
    rw [List.head?_cons, Ne, Option.some_inj] at hsmall hcapital
    simp [startsWithLetter, hsmall, hcapital]

/-- A character that ends decimal digits and makes no floating-point numeral of them. -/
def isBreak (character : Char) : Bool :=
  !isDecimal character && character ≠ '.' && character ≠ 'e' && character ≠ 'E'

/-- Digits that end at neither a point nor an exponent are no floating-point number. -/
theorem isFloating_eq_false (hdigits : ∀ character ∈ digits, isDecimal character)
    (hbreak : ∀ character, rest.head? = some character → isBreak character)
    (hhexadecimal : isHexadecimalFloat (digits ++ rest) = false) :
    isFloating (digits ++ rest) = false := by
  have hends : EndsClass isDecimal rest := by
    intro character hcharacter
    have hclass := hbreak character hcharacter
    simp only [isBreak, Bool.and_eq_true, Bool.not_eq_true'] at hclass
    exact hclass.1.1.1
  have hne : ∀ character, isBreak character = false → rest.head? ≠ some character := by
    intro character hother hcharacter
    rw [hbreak character hcharacter] at hother
    cases hother
  have hpoint : hasPoint (digits ++ rest) = false := by
    rw [Bool.eq_false_iff, Ne, hasPoint_digits hdigits hends]
    exact hne '.' (by decide)
  have hexponent : hasExponent (digits ++ rest) = false := by
    rw [Bool.eq_false_iff, Ne, hasExponent_digits hdigits hends,
      startsWithLetter_eq_false (hne 'e' (by decide)) (hne 'E' (by decide))]
    simp
  rw [isFloating, hhexadecimal, hpoint, hexponent]
  rfl

/-- Decimal digits with a suffix are no floating-point numeral, and neither are octal ones. -/
theorem isFloating_digits_suffix (hdigits : ∀ character ∈ digits, isDecimal character)
    (hsuffix : IsIntegerSuffix suffix) : isFloating (digits ++ suffix) = false := by
  have hradix : ∀ letter, isDecimal letter = false → letter ∉ ['u', 'U', 'l', 'L', 'z', 'Z'] →
      letter ∉ digits ++ suffix := by
    intro letter hclass hletter hmem
    rcases List.mem_append.mp hmem with hmem | hmem
    · rw [hdigits letter hmem] at hclass
      cases hclass
    · exact hletter (hsuffix letter hmem)
  exact isFloating_eq_false hdigits (hsuffix.head (List.all_eq_true.mp (by decide)))
    (isHexadecimalFloat_of_not_mem (hradix 'x' (by decide) (by decide))
      (hradix 'X' (by decide) (by decide)))

/-- Behind a zero, the mark of another radix ends the decimal digits. -/
theorem isFloating_radix {mark : Char} (hmark : isBreak mark) (text : List Char)
    (hhexadecimal : isHexadecimalFloat ('0' :: mark :: text) = false) :
    isFloating ('0' :: mark :: text) = false := by
  apply @isFloating_eq_false ['0'] (mark :: text)
  · exact List.forall_mem_singleton.mpr (by decide)
  · intro character hcharacter
    obtain rfl : mark = character := Option.some.inj hcharacter
    exact hmark
  · exact hhexadecimal

/-- No integer numeral is taken for a floating-point number, although `e` is a hexadecimal digit and
a suffix may follow. -/
theorem isFloating_of_isIntegerNumeral {text : List Char} (hnumeral : IsIntegerNumeral text) :
    isFloating text = false := by
  cases hnumeral with
  | decimal hdigits _ hsuffix =>
    exact isFloating_digits_suffix (hdigits.forall_mem isDecimal_of_isDigit (by decide)) hsuffix
  | octal hdigits _ hsuffix =>
    exact isFloating_digits_suffix (hdigits.forall_mem isDecimal_of_isOctalDigit (by decide))
      hsuffix
  | @binary mark digits suffix hmark _ _ =>
    have hfloat : isHexadecimalFloat ('0' :: mark :: (digits ++ suffix)) = false := by
      rcases hmark with rfl | rfl <;> simp [isHexadecimalFloat]
    exact isFloating_radix (by rcases hmark with rfl | rfl <;> decide) _ hfloat
  | @hexadecimal mark digits suffix hmark hdigits hsuffix =>
    have hends : EndsClass isHexadecimal suffix :=
      hsuffix.head (by simp [isHexadecimal, isDecimal])
    have hne : ∀ other, other ∉ ['u', 'U', 'l', 'L', 'z', 'Z'] → suffix.head? ≠ some other :=
      fun other hother hhead => hother (hsuffix other (List.mem_of_mem_head? hhead))
    have hfloat : isHexadecimalFloat ('0' :: mark :: (digits ++ suffix)) = false := by
      rw [isHexadecimalFloat_digits hmark
        (hdigits.forall_mem isHexadecimal_of_isHexadecimalDigit (by decide)) hends
        (hne '.' (by decide))]
      exact startsWithLetter_eq_false (hne 'p' (by decide)) (hne 'P' (by decide))
    exact isFloating_radix (by rcases hmark with rfl | rfl <;> decide) _ hfloat

/-! ### Classes -/

theorem numberClass_eq_floatLiteral_iff {text : String} :
    numberClass text = .floatLiteral ↔ isFloating text.toList := by
  unfold numberClass
  split <;> simp_all

theorem numberClass_eq_intLiteral_iff {text : String} :
    numberClass text = .intLiteral ↔ isFloating text.toList = false := by
  unfold numberClass
  split <;> simp_all

theorem isFloating_iff_isFloatingNumeral {text : List Char}
    (hnumeral : IsFloatingNumeral text ∨ IsIntegerNumeral text) :
    isFloating text ↔ IsFloatingNumeral text := by
  refine ⟨?_, isFloating_of_isFloatingNumeral⟩
  intro hclass
  apply hnumeral.resolve_right
  intro hinteger
  rw [isFloating_of_isIntegerNumeral hinteger] at hclass
  cases hclass

theorem isFloating_eq_false_iff_isIntegerNumeral {text : List Char}
    (hnumeral : IsFloatingNumeral text ∨ IsIntegerNumeral text) :
    isFloating text = false ↔ IsIntegerNumeral text := by
  refine ⟨?_, isFloating_of_isIntegerNumeral⟩
  intro hclass
  apply hnumeral.resolve_left
  intro hfloating
  rw [isFloating_of_isFloatingNumeral hfloating] at hclass
  cases hclass

/-- The class of a number tells the floating-point numerals from the integer numerals. -/
theorem separates_numerals {text : String}
    (hnumeral : IsFloatingNumeral text.toList ∨ IsIntegerNumeral text.toList) :
    (numberClass text = .floatLiteral ↔ IsFloatingNumeral text.toList) ∧
      (numberClass text = .intLiteral ↔ IsIntegerNumeral text.toList) := by
  rw [numberClass_eq_floatLiteral_iff, numberClass_eq_intLiteral_iff]
  exact ⟨isFloating_iff_isFloatingNumeral hnumeral,
    isFloating_eq_false_iff_isIntegerNumeral hnumeral⟩

/-- The exponent of a hexadecimal number is marked by `p`, so an `e` in it is a digit. -/
theorem separates_hexadecimal_numerals :
    IsFloatingNumeral "0x1'E.8p-3f".toList ∧ numberClass "0x1'E.8p-3f" = .floatLiteral ∧
      IsIntegerNumeral "0XE'e5uLL".toList ∧ numberClass "0XE'e5uLL" = .intLiteral := by
  have hfloating : IsFloatingNumeral "0x1'E.8p-3f".toList :=
    @IsFloatingNumeral.hexadecimal 'x' ['1', '\'', 'E', '.', '8'] ['p', '-', '3'] "f" (Or.inl rfl)
      (Or.inr (@IsPointed.between _ ['1', '\'', 'E'] ['8'] (.separated rfl (.last rfl))
        (.last rfl)))
      (.signed (Or.inl rfl) (Or.inr rfl) (.last rfl)) (by decide)
  have hinteger : IsIntegerNumeral "0XE'e5uLL".toList :=
    @IsIntegerNumeral.hexadecimal 'X' ['E', '\'', 'e', '5'] ['u', 'L', 'L'] (Or.inr rfl)
      (.separated rfl (.cons rfl (.last rfl))) (by simp [IsIntegerSuffix])
  exact ⟨hfloating, (separates_numerals (Or.inl hfloating)).1.mpr hfloating, hinteger,
    (separates_numerals (Or.inr hinteger)).2.mpr hinteger⟩

/-! ### Signs -/

/-- A sign is no digit, no point and no mark of a radix, so nothing behind it is looked at. -/
theorem isFloating_signed {sign : Char} (hsign : sign = '+' ∨ sign = '-') (text : List Char) :
    isFloating (sign :: text) = false := by
  have hbreak : isBreak sign := by rcases hsign with rfl | rfl <;> decide
  apply @isFloating_eq_false [] (sign :: text) (List.forall_mem_nil _)
  · intro character hcharacter
    obtain rfl : sign = character := Option.some.inj hcharacter
    exact hbreak
  · rcases hsign with rfl | rfl <;> simp [isHexadecimalFloat]

/-- A signed number counts as an integer. So a sign in front of a numeral leaves its class as it is
if and only if the numeral is an integer. -/
theorem resolve_signed_eq_iff {text : String} {sign : Char} (hsign : sign = '+' ∨ sign = '-')
    (hnumeral : IsFloatingNumeral text.toList ∨ IsIntegerNumeral text.toList)
    (distinguishNumbers : Bool) :
    numberClass (String.ofList (sign :: text.toList)) = .intLiteral ∧
      (numberClass (String.ofList (sign :: text.toList)) = numberClass text ↔
        IsIntegerNumeral text.toList) ∧
      (LiteralRule.numeric.resolve (String.ofList (sign :: text.toList)) distinguishNumbers =
          LiteralRule.numeric.resolve text distinguishNumbers ↔
        IsIntegerNumeral text.toList) := by
  have hsigned : numberClass (String.ofList (sign :: text.toList)) = .intLiteral := by
    rw [numberClass_eq_intLiteral_iff, String.toList_ofList]
    exact isFloating_signed hsign text.toList
  have hsame : numberClass (String.ofList (sign :: text.toList)) = numberClass text ↔
      IsIntegerNumeral text.toList := by
    rw [hsigned, eq_comm, numberClass_eq_intLiteral_iff]
    exact isFloating_eq_false_iff_isIntegerNumeral hnumeral
  exact ⟨hsigned, hsame, hsame⟩

theorem resolve_signed_binary :
    IsIntegerNumeral "0b1'0u".toList ∧
      LiteralRule.numeric.resolve "-0b1'0u" false = LiteralRule.numeric.resolve "0b1'0u" false := by
  have hinteger : IsIntegerNumeral "0b1'0u".toList :=
    @IsIntegerNumeral.binary 'b' ['1', '\'', '0'] ['u'] (Or.inl rfl)
      (.separated rfl (.last rfl)) (by simp [IsIntegerSuffix])
  have hsame := (resolve_signed_eq_iff (Or.inr rfl) (Or.inr hinteger) false).2.2.mpr hinteger
  exact ⟨hinteger, hsame⟩

/-- The fraction `.5e-3` has the class of floating-point numbers, and `-.5e-3` that of integers. -/
theorem signed_fraction_counts_as_integer :
    IsFloatingNumeral ".5e-3".toList ∧ numberClass ".5e-3" = .floatLiteral ∧
      numberClass "-.5e-3" = .intLiteral ∧
      ¬ ∀ (text : String) (sign : Char), sign = '+' ∨ sign = '-' →
        IsFloatingNumeral text.toList ∨ IsIntegerNumeral text.toList →
        numberClass (String.ofList (sign :: text.toList)) = numberClass text := by
  have hfloating : IsFloatingNumeral ".5e-3".toList :=
    @IsFloatingNumeral.pointed ['.', '5'] ['e', '-', '3'] "" (.before (.last rfl))
      (Or.inr (.signed (Or.inl rfl) (Or.inr rfl) (.last rfl))) (by decide)
  have hunsigned : numberClass ".5e-3" = .floatLiteral := by decide
  have hsigned : numberClass "-.5e-3" = .intLiteral := by decide
  refine ⟨hfloating, hunsigned, hsigned, ?_⟩
  intro hsame
  have hclass : numberClass "-.5e-3" = numberClass ".5e-3" :=
    hsame ".5e-3" '-' (Or.inr rfl) (Or.inl hfloating)
  rw [hunsigned, hsigned] at hclass
  cases hclass

end Literal

end CanonicalTokens
