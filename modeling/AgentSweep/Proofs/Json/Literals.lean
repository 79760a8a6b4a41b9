import AgentSweep.Json.Token
import Mathlib.Algebra.Group.Nat.Defs

/-!
# Literals are read back

Some literals can be written in more than one way: the exponent of a number may begin with a letter
of either case and need not show its sign `+`, and the digits of a UTF-16 unit may be of either
case. Relations `WrittenAs` say how a literal may be written, and it is read back from each of these
forms, whatever follows it. For a string nothing has to be said of what follows, since its closing
quotation mark tells where it ends. A number ends where no character follows with which it could go
on (`Token.Ends`).

The form in which a literal is written here (`chars`) is one of them if the literal is well formed
(`StringLiteral.Sound`, `NumberLiteral.Sound`). Texts and natural numbers are written as well-formed
literals, and each text is what its literal stands for (`StringLiteral.text?_ofText`).
-/

namespace AgentSweep

namespace Hexadecimal

theorem value?_digitChar {d : Nat} (h : d < 16) : value? d.digitChar = some d := by
  decide +revert

/-- **A number is read back from its digits**, if there are as many as it needs. -/
theorem number?_digits {n count : Nat} (h : n < 16 ^ count) :
    number? (digits n count) = some n := by
  have hvalues (count n : Nat) (h : n < 16 ^ count) :
      ∃ values, (digits n count).mapM value? = some values
        ∧ values.foldl (fun n d => 16 * n + d) 0 = n := by
    induction count generalizing n with
    | zero => exact ⟨[], rfl, (Nat.lt_one_iff.mp h).symm⟩
    | succ count ih =>
      rw [Nat.pow_succ] at h
      obtain ⟨values, hvalues, hfold⟩ := ih (n / 16) (by omega)
      refine ⟨values ++ [n % 16], ?_, ?_⟩
      · rw [digits, List.mapM_append, hvalues, List.mapM_cons,
          value?_digitChar (Nat.mod_lt n (by decide))]
        rfl
      · rw [List.foldl_append, hfold, List.foldl_cons, List.foldl_nil]
        omega
  obtain ⟨values, hvalues, hfold⟩ := hvalues count n h
  rw [number?, hvalues, Option.map_some, hfold]

end Hexadecimal

/-! ## Strings -/

/-- **A piece of a string that is read back** from its written form. -/
inductive Piece.Sound : Piece → Prop where
  | plain {c : Char} (hquote : c ≠ '"') (hslash : c ≠ '\\') (hcontrol : ¬ c.toNat < 0x20) :
      Sound (.plain c)
  | escape {letter : Char} (h : (shortEscapes.lookup letter).isSome = true) :
      Sound (.escape letter)
  | unit {code : Nat} (h : code < 0x10000) : Sound (.unit code)

/-- **How a piece may be written.** The digits of a unit may be of either case. -/
inductive Piece.WrittenAs : Piece → List Char → Prop where
  | plain {c : Char} (hquote : c ≠ '"') (hslash : c ≠ '\\') (hcontrol : ¬ c.toNat < 0x20) :
      WrittenAs (.plain c) [c]
  | escape {letter : Char} (h : (shortEscapes.lookup letter).isSome = true) :
      WrittenAs (.escape letter) ['\\', letter]
  | unit {a b c d : Char} {code : Nat} (h : Hexadecimal.number? [a, b, c, d] = some code) :
      WrittenAs (.unit code) ['\\', 'u', a, b, c, d]

theorem Piece.Sound.writtenAs {p : Piece} (h : p.Sound) :
    p.WrittenAs (StringLiteral.pieceChars p) := by
  cases h with
  | plain hquote hslash hcontrol => exact .plain hquote hslash hcontrol
  | escape h => exact .escape h
  | @unit code h =>
    have hnumber : Hexadecimal.number? (Hexadecimal.digits code 4) = some code :=
      Hexadecimal.number?_digits h
    exact .unit hnumber

namespace StringLiteral

/-- A string whose pieces are all read back. -/
def Sound (s : StringLiteral) : Prop := ∀ p ∈ s, p.Sound

/-- **How a string may be written**, from behind its first quotation mark to the last one. -/
inductive WrittenAs : StringLiteral → List Char → Prop where
  | nil : WrittenAs [] ['"']
  | cons {p : Piece} {s : StringLiteral} {row cs : List Char} (piece : p.WrittenAs row)
      (rest : WrittenAs s cs) : WrittenAs (p :: s) (row ++ cs)

theorem Sound.writtenAs {s : StringLiteral} (h : s.Sound) :
    s.WrittenAs (s.flatMap pieceChars ++ ['"']) := by
  induction s with
  | nil => exact .nil
  | cons p s ih =>
    rw [List.flatMap_cons, List.append_assoc]
    exact .cons (h p List.mem_cons_self).writtenAs (ih fun q hq => h q (List.mem_cons_of_mem _ hq))

open Token in
/-- A piece is read from however it is written. -/
theorem scanString_of_piece {p : Piece} {row : List Char} (h : p.WrittenAs row)
    (before : List Piece) (rest : List Symbol) :
    scanString before (row.map some ++ rest) = scanString (p :: before) rest := by
  cases h with
  | plain hquote hslash hcontrol =>
    simp only [List.map_cons, List.map_nil, List.singleton_append]
    rw [scanString]
    · rw [if_neg]
      simp only [hslash, hcontrol, or_self, not_false_eq_true]
    all_goals simp [hquote, hslash]
  | @escape letter h =>
    have hletter : letter ≠ 'u' := by
      rintro rfl
      exact absurd h (by decide)
    simp only [List.map_cons, List.map_nil, List.cons_append, List.nil_append]
    rw [scanString]
    · rw [if_pos h]
    · simp [hletter]
  | unit h =>
    simp only [List.map_cons, List.map_nil, List.cons_append, List.nil_append]
    rw [scanString, h]

open Token in
/-- **A string is read from however it is written.** -/
theorem scanString_of_writtenAs {s : StringLiteral} {cs : List Char} (h : s.WrittenAs cs)
    (before : List Piece) (rest : List Symbol) :
    scanString before (cs.map some ++ rest) = some (before.reverse ++ s, rest) := by
  induction h generalizing before with
  | nil =>
    rw [List.append_nil]
    rfl
  | cons piece _ ih =>
    rw [List.map_append, List.append_assoc, scanString_of_piece piece, ih, List.reverse_cons,
      List.append_assoc]
    rfl

/-- How a character is written is one of the ways of writing it. -/
theorem piece_cases (c : Char) :
    (piece c = .plain c ∧ c ≠ '"' ∧ c ≠ '\\' ∧ ¬ c.toNat < 0x20)
      ∨ (∃ letter, piece c = .escape letter ∧ Piece.shortEscapes.lookup letter = some c)
      ∨ (piece c = .unit c.toNat ∧ c.toNat < 0x20) := by
  unfold piece
  split
  · next h => exact .inr (.inl ⟨'"', rfl, by rw [h]; rfl⟩)
  split
  · next h => exact .inr (.inl ⟨'\\', rfl, by rw [h]; rfl⟩)
  split
  · next hcontrol =>
    split
    · next letter other hfind =>
      have hc : other = c := by simpa using List.find?_some hfind
      have hlookup : ∀ entry ∈ Piece.shortEscapes,
          Piece.shortEscapes.lookup entry.1 = some entry.2 := by decide
      exact .inr (.inl ⟨letter, rfl, hc ▸ hlookup _ (List.mem_of_find?_eq_some hfind)⟩)
    · exact .inr (.inr ⟨rfl, hcontrol⟩)
  · next hquote hslash hcontrol => exact .inl ⟨rfl, hquote, hslash, hcontrol⟩

theorem sound_ofText (s : String) : (ofText s).Sound := by
  intro p hp
  obtain ⟨c, -, rfl⟩ := List.mem_map.mp hp
  rcases piece_cases c with ⟨hpiece, hquote, hslash, hcontrol⟩ | ⟨letter, hpiece, hlookup⟩
    | ⟨hpiece, hcontrol⟩
  · exact hpiece ▸ .plain hquote hslash hcontrol
  · exact hpiece ▸ .escape (by rw [hlookup]; rfl)
  · exact hpiece ▸ .unit (Nat.lt_trans hcontrol (by decide))

/-- A character is what its piece stands for, whatever comes after it. -/
theorem chars?_piece_cons (c : Char) (rest : StringLiteral) :
    chars? (piece c :: rest) = (chars? rest).map (c :: ·) := by
  rcases piece_cases c with ⟨hpiece, -⟩ | ⟨letter, hpiece, hlookup⟩ | ⟨hpiece, hcontrol⟩
  · rw [hpiece, chars?]
  · rw [hpiece, chars?, hlookup]
  · -- a control character is no half of a surrogate pair
    have hhigh : ¬ (0xd800 ≤ c.toNat ∧ c.toNat < 0xdc00) := by omega
    have hlow : ¬ (0xdc00 ≤ c.toNat ∧ c.toNat < 0xe000) := by omega
    have hsurrogate : ¬ (0xd800 ≤ c.toNat ∧ c.toNat < 0xe000) := by omega
    rw [hpiece]
    cases rest with
    | nil => simp only [chars?, if_neg hsurrogate, Char.ofNat_toNat]
    | cons p rest =>
      cases p with
      | unit low => simp only [chars?, if_neg hhigh, if_neg hlow, Char.ofNat_toNat]
      | _ => simp only [chars?, if_neg hsurrogate, Char.ofNat_toNat]

/-- **A text is what its written form stands for.** -/
theorem text?_ofText (s : String) : (ofText s).text? = some s := by
  have hchars (l : List Char) : chars? (l.map piece) = some l := by
    induction l with
    | nil => rfl
    | cons c l ih => rw [List.map_cons, chars?_piece_cons, ih, Option.map_some]
  rw [text?, ofText, hchars, Option.map_some, String.ofList_toList]

end StringLiteral

/-! ## Numbers -/

namespace Token

/-- **A number may end here**: no character comes with which it could go on. -/
def Ends (rest : List Symbol) : Prop :=
  ∀ c, rest.head? = some (some c) → c.isDigit = false ∧ c ≠ '.' ∧ c ≠ 'e' ∧ c ≠ 'E'

variable {row : List Char} {rest : List Symbol}

theorem digits_append (hrow : ∀ c ∈ row, c.isDigit = true)
    (hrest : ∀ c, rest.head? = some (some c) → c.isDigit = false) :
    digits (row.map some ++ rest) = row ∧ afterDigits (row.map some ++ rest) = rest := by
  have hall : ∀ x ∈ row.map some, isDigit x = true := by
    intro x hx
    obtain ⟨c, hc, rfl⟩ := List.mem_map.mp hx
    exact hrow c hc
  have htake : rest.takeWhile isDigit = [] := by
    cases rest with
    | nil => rfl
    | cons x rest =>
      cases x with
      | none => rfl
      | some c => exact List.takeWhile_cons_of_neg (by simpa [isDigit] using hrest c rfl)
  have hdrop : rest.dropWhile isDigit = rest := by
    have happend := List.takeWhile_append_dropWhile (p := isDigit) (l := rest)
    rwa [htake] at happend
  constructor
  · rw [digits, List.takeWhile_append_of_pos hall, htake, List.append_nil, List.filterMap_map]
    exact List.filterMap_some
  · rw [afterDigits, List.dropWhile_append_of_pos hall, hdrop]

end Token

/-- **A number literal of the strict grammar.** -/
structure NumberLiteral.Sound (n : NumberLiteral) : Prop where
  isDigit_whole : ∀ c ∈ n.whole, c.isDigit = true
  /-- There is no zero in front, unless it is all there is. -/
  whole_cases : n.whole = ['0'] ∨ ∃ c rest, n.whole = c :: rest ∧ c ≠ '0'
  isDigit_fraction : ∀ c ∈ n.fraction, c.isDigit = true
  exponent : ∀ negative row, n.exponent = some (negative, row) →
    row ≠ [] ∧ ∀ c ∈ row, c.isDigit = true

namespace NumberLiteral

open Token

variable {n : NumberLiteral} {rest : List Symbol}

/-- **How an exponent may be written.** Its letter may be of either case, and the sign `+` may be
left out. -/
inductive ExponentWrittenAs : Option (Bool × List Char) → List Char → Prop where
  | none : ExponentWrittenAs none []
  | signed {letter : Char} (hletter : letter = 'e' ∨ letter = 'E') (negative : Bool)
      (row : List Char) : ExponentWrittenAs (some (negative, row))
        (letter :: (if negative then '-' else '+') :: row)
  | unsigned {letter : Char} (hletter : letter = 'e' ∨ letter = 'E') (row : List Char) :
      ExponentWrittenAs (some (false, row)) (letter :: row)

/-- The point and the digits after it, if there are any. -/
def fractionChars (n : NumberLiteral) : List Char :=
  if n.fraction.isEmpty then [] else '.' :: n.fraction

/-- **How a number may be written.** Only its exponent leaves a choice. -/
inductive WrittenAs (n : NumberLiteral) : List Char → Prop where
  | intro {exponent : List Char} (sound : n.Sound)
      (written : ExponentWrittenAs n.exponent exponent) :
      WrittenAs n ((if n.negative then ['-'] else []) ++ (n.whole ++ (n.fractionChars ++ exponent)))

theorem Sound.writtenAs (h : n.Sound) : n.WrittenAs n.chars := by
  have hexponent : ExponentWrittenAs n.exponent (exponentChars n.exponent) := by
    cases n.exponent with
    | none => exact .none
    | some sized => exact .signed (.inl rfl) sized.1 sized.2
  have hchars : n.chars = (if n.negative then ['-'] else [])
      ++ (n.whole ++ (n.fractionChars ++ exponentChars n.exponent)) := by
    simp only [chars, fractionChars, List.append_assoc]
  exact hchars ▸ .intro h hexponent

variable {exponent : List Char}

/-- An exponent is read from however it is written. -/
theorem scanExponent_of_writtenAs (h : n.Sound) (hwritten : ExponentWrittenAs n.exponent exponent)
    (hrest : Ends rest) : scanExponent (exponent.map some ++ rest) = some (n.exponent, rest) := by
  have hsound := h.exponent
  revert hwritten hsound
  generalize n.exponent = sized
  intro hwritten hsound
  cases hwritten with
  | none =>
    show scanExponent rest = _
    unfold scanExponent
    split
    · next c later =>
      obtain ⟨-, -, he, hE⟩ := hrest c rfl
      rw [if_neg (by simp [he, hE])]
    · rfl
  | signed hletter negative row =>
    obtain ⟨hne, hrow⟩ := hsound negative row rfl
    obtain ⟨hdigits, hafter⟩ := digits_append hrow fun c hc => (hrest c hc).1
    have hsign : scanSign (some (if negative then '-' else '+') :: (row.map some ++ rest))
        = (negative, row.map some ++ rest) := by
      cases negative <;> rfl
    simp only [List.map_cons, List.cons_append, scanExponent, hsign, hdigits, hafter, hletter,
      if_true, List.isEmpty_iff, if_neg hne]
  | unsigned hletter row =>
    obtain ⟨hne, hrow⟩ := hsound false row rfl
    obtain ⟨hdigits, hafter⟩ := digits_append hrow fun c hc => (hrest c hc).1
    -- the first digit is not taken for a sign
    have hsign : scanSign (row.map some ++ rest) = (false, row.map some ++ rest) := by
      obtain ⟨c, later, rfl⟩ := List.exists_cons_of_ne_nil hne
      have hc := hrow c List.mem_cons_self
      unfold scanSign
      split
      · next heq => cases heq; exact absurd hc (by decide)
      · next heq => cases heq; exact absurd hc (by decide)
      · rfl
    simp only [List.map_cons, List.cons_append, scanExponent, hsign, hdigits, hafter, hletter,
      if_true, List.isEmpty_iff, if_neg hne]

theorem ends_of_exponentWrittenAs {sized : Option (Bool × List Char)}
    (hwritten : ExponentWrittenAs sized exponent) (hrest : Ends rest) :
    ∀ c, (exponent.map some ++ rest).head? = some (some c) → c.isDigit = false ∧ c ≠ '.' := by
  intro c hc
  cases hwritten with
  | none => exact ⟨(hrest c hc).1, (hrest c hc).2.1⟩
  | signed hletter | unsigned hletter =>
    cases hc
    rcases hletter with rfl | rfl <;> exact ⟨rfl, by decide⟩

theorem scanFraction_of_writtenAs (h : n.Sound)
    (hwritten : ExponentWrittenAs n.exponent exponent) (hrest : Ends rest) :
    scanFraction ((n.fractionChars ++ exponent).map some ++ rest)
      = some (n.fraction, exponent.map some ++ rest) := by
  have hends := ends_of_exponentWrittenAs hwritten hrest
  rw [fractionChars, List.map_append, List.append_assoc]
  generalize exponent.map some ++ rest = later at hends ⊢
  cases hfraction : n.fraction with
  | nil =>
    show scanFraction later = _
    unfold scanFraction
    split
    · next more => exact absurd rfl (hends '.' rfl).2
    · rfl
  | cons c row =>
    obtain ⟨hdigits, hafter⟩ := digits_append h.isDigit_fraction fun c hc => (hends c hc).1
    rw [hfraction] at hdigits hafter
    show scanFraction (some '.' :: ((c :: row).map some ++ later)) = _
    simp only [scanFraction, hdigits, hafter, List.isEmpty_cons, Bool.false_eq_true, if_false]

theorem scanWhole_of_writtenAs (h : n.Sound)
    (hwritten : ExponentWrittenAs n.exponent exponent) (hrest : Ends rest) :
    scanWhole (n.whole.map some ++ ((n.fractionChars ++ exponent).map some ++ rest))
      = some (n.whole, (n.fractionChars ++ exponent).map some ++ rest) := by
  have hends : ∀ c, ((n.fractionChars ++ exponent).map some ++ rest).head? = some (some c) →
      c.isDigit = false := by
    intro c hc
    rw [fractionChars] at hc
    cases hfraction : n.fraction with
    | nil =>
      rw [hfraction] at hc
      exact (ends_of_exponentWrittenAs hwritten hrest c hc).1
    | cons d row =>
      rw [hfraction] at hc
      cases hc
      rfl
  obtain ⟨hdigits, hafter⟩ := digits_append h.isDigit_whole hends
  unfold scanWhole
  rw [hdigits, hafter]
  rcases h.whole_cases with hzero | ⟨c, row, hwhole, hc⟩
  · rw [hzero]
    rfl
  · rw [hwhole]
    split
    · next heq => cases heq
    · next heq => exact absurd (List.cons.inj heq).1 hc
    · rfl

/-- **A number is read from however it is written**, wherever it may end. -/
theorem scanNumber_of_writtenAs (h : n.Sound)
    (hwritten : ExponentWrittenAs n.exponent exponent) (hrest : Ends rest) :
    scanNumber n.negative ((n.whole ++ (n.fractionChars ++ exponent)).map some ++ rest)
      = some (n, rest) := by
  rw [List.map_append, List.append_assoc, scanNumber, scanWhole_of_writtenAs h hwritten hrest]
  show (scanFraction _).bind _ = _
  rw [scanFraction_of_writtenAs h hwritten hrest]
  show (scanExponent _).bind _ = _
  rw [scanExponent_of_writtenAs h hwritten hrest]
  rfl

/-- The first digit of a number other than zero is not a zero. -/
theorem exists_toDigits_eq_cons {n : Nat} (h : n ≠ 0) :
    ∃ c rest, Nat.toDigits 10 n = c :: rest ∧ c ≠ '0' := by
  induction n using Nat.base_induction 10 (by decide) with
  | single m hm =>
    refine ⟨m.digitChar, [], Nat.toDigits_of_lt_base hm, ?_⟩
    decide +revert
  | digit m k hk hm ih =>
    obtain ⟨c, rest, hdigits, hc⟩ := ih (Nat.ne_of_gt hm)
    refine ⟨c, rest ++ Nat.toDigits 10 k, ?_, hc⟩
    rw [← Nat.toDigits_append_toDigits (by decide) hm hk, hdigits, List.cons_append]

theorem isDigit_of_mem_toDigits {n : Nat} {c : Char} (h : c ∈ Nat.toDigits 10 n) :
    c.isDigit = true :=
  Nat.isDigit_of_mem_toDigits (by decide) (by decide) h

theorem sound_ofNat (n : Nat) : (ofNat n).Sound where
  isDigit_whole _ := isDigit_of_mem_toDigits
  whole_cases := by
    rcases Nat.eq_zero_or_pos n with rfl | hpos
    · exact .inl (Nat.toDigits_zero 10)
    · exact .inr (exists_toDigits_eq_cons (Nat.ne_of_gt hpos))
  isDigit_fraction := by simp [ofNat]
  exponent := by simp [ofNat]

/-- **A natural number is what its written form stands for.** -/
theorem toNat?_ofNat (n : Nat) : (ofNat n).toNat? = some n := by
  show some (Nat.ofDigitChars 10 (Nat.toDigits 10 n) 0) = some n
  rw [Nat.ofDigitChars_ten_toDigits]

end NumberLiteral

end AgentSweep
