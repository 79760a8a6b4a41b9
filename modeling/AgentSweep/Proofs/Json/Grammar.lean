import AgentSweep.Json.Reader
import AgentSweep.Proofs.Json.Literals
import Mathlib.Data.List.Chain

/-!
# Texts are read

A JSON text of a value consists of the tokens of that value, each written in one of its ways, with
blanks before, between and after them (`Json.WrittenAs`). Every such text is read as the value
(`Json.ofBytes?_of_writtenAs`).

A text is scanned into tokens before anybody knows which value they make up. Two numbers in a row
could not be told apart then, since nothing has to stand between tokens. But no value has two
numbers in a row, and no other token begins with a character with which a number could go on.
-/

namespace AgentSweep

namespace Token

/-! ## How tokens may be written -/

/-- **A token that is neither a number nor a string.** -/
def IsMark : Token → Prop
  | number _ => False
  | string _ => False
  | _ => True

/-- Whether a token is a number. -/
def isNumber : Token → Bool
  | number _ => true
  | _ => false

/-- **How a token may be written.** -/
inductive WrittenAs : Token → List Char → Prop where
  | mark {t : Token} (h : t.IsMark) : WrittenAs t t.chars
  | number {n : NumberLiteral} {cs : List Char} (h : n.WrittenAs cs) : WrittenAs (number n) cs
  | string {s : StringLiteral} {cs : List Char} (h : s.WrittenAs cs) :
      WrittenAs (string s) ('"' :: cs)

/-- **How tokens may be written** one after the other, with blanks wherever they do not stand inside
a token. -/
inductive AllWrittenAs : List Token → List Char → Prop where
  | nil : AllWrittenAs [] []
  | blank {c : Char} {ts : List Token} {cs : List Char} (hblank : isBlank c = true)
      (rest : AllWrittenAs ts cs) : AllWrittenAs ts (c :: cs)
  | token {t : Token} {ts : List Token} {row cs : List Char} (first : t.WrittenAs row)
      (rest : AllWrittenAs ts cs) : AllWrittenAs (t :: ts) (row ++ cs)

variable {t : Token} {ts : List Token} {row cs : List Char} {rest : List Symbol}

/-! ## Where numbers end -/

theorem Ends.nil : Ends [] := by
  intro c hc
  cases hc

theorem Ends.cons {c : Char} {rest : List Symbol} (hdigit : c.isDigit = false) (hpoint : c ≠ '.')
    (he : c ≠ 'e') (hE : c ≠ 'E') : Ends (some c :: rest) := by
  intro d hd
  cases hd
  exact ⟨hdigit, hpoint, he, hE⟩

/-- A number ends before any token that is not a number. -/
theorem WrittenAs.ends (h : t.WrittenAs row) (ht : t.isNumber = false) (cs : List Char) :
    Ends ((row ++ cs).map some) := by
  cases h with
  | mark hmark =>
    cases t with
    | number | string => exact hmark.elim
    | boolean b => cases b <;> exact .cons rfl (by decide) (by decide) (by decide)
    | _ => exact .cons rfl (by decide) (by decide) (by decide)
  | number => cases ht
  | string => exact .cons rfl (by decide) (by decide) (by decide)

/-- A number ends before blanks, and before what follows them. -/
theorem AllWrittenAs.ends (h : AllWrittenAs ts cs)
    (hfirst : ∀ t ∈ ts.head?, t.isNumber = false) : Ends (cs.map some) := by
  cases h with
  | nil => exact .nil
  | @blank c _ _ hblank _ =>
    simp only [isBlank, Bool.or_eq_true, beq_iff_eq] at hblank
    rcases hblank with ((rfl | rfl) | rfl) | rfl <;>
      exact .cons rfl (by decide) (by decide) (by decide)
  | token first _ => exact first.ends (hfirst _ rfl) _

/-- **One of two neighbours is no number.** -/
def Apart (t u : Token) : Prop := t.isNumber = false ∨ u.isNumber = false

/-! ## Tokens are scanned from their texts -/

/-- The first character of a number tells the scanner that a number comes. -/
theorem scanOne_digit {c : Char} (h : c.isDigit = true) (rest : List Symbol) :
    scanOne c rest = (scanNumber false (some c :: rest)).map fun (n, rest) => (number n, rest) := by
  unfold scanOne
  split <;> first | rfl | exact absurd h (by decide)

theorem isBlank_eq_false_of_isDigit {c : Char} (h : c.isDigit = true) : isBlank c = false := by
  unfold isBlank
  simp only [Bool.or_eq_false_iff, beq_eq_false_iff_ne]
  refine ⟨⟨⟨?_, ?_⟩, ?_⟩, ?_⟩ <;> rintro rfl <;> exact absurd h (by decide)

/-- **A token is scanned from however it is written**: its first character is no blank, and tells
what is to follow. -/
theorem WrittenAs.exists_eq_cons (h : t.WrittenAs row) (hends : t.isNumber = true → Ends rest) :
    ∃ c later, row = c :: later ∧ isBlank c = false
      ∧ scanOne c (later.map some ++ rest) = some (t, rest) := by
  cases h with
  | mark hmark =>
    cases t with
    | number | string => exact hmark.elim
    | boolean b => cases b <;> exact ⟨_, _, rfl, rfl, rfl⟩
    | _ => exact ⟨_, _, rfl, rfl, rfl⟩
  | @string s cs h =>
    refine ⟨_, _, rfl, rfl, ?_⟩
    show (scanString [] (cs.map some ++ rest)).map _ = _
    rw [StringLiteral.scanString_of_writtenAs h]
    rfl
  | @number n cs h =>
    cases h with
    | @intro exponent sound written =>
      have hscan := NumberLiteral.scanNumber_of_writtenAs sound written (hends rfl)
      obtain ⟨c, later, hwhole⟩ : ∃ c later, n.whole = c :: later := by
        rcases sound.whole_cases with hzero | ⟨c, later, hwhole, -⟩
        · exact ⟨_, _, hzero⟩
        · exact ⟨_, _, hwhole⟩
      have hdigit : c.isDigit = true := sound.isDigit_whole c (hwhole ▸ List.mem_cons_self)
      cases hnegative : n.negative with
      | true =>
        refine ⟨_, _, rfl, rfl, ?_⟩
        show (scanNumber true
          ((n.whole ++ (n.fractionChars ++ exponent)).map some ++ rest)).map _ = _
        rw [← hnegative, hscan]
        rfl
      | false =>
        refine ⟨c, later ++ (n.fractionChars ++ exponent), by rw [hwhole]; rfl,
          isBlank_eq_false_of_isDigit hdigit, ?_⟩
        rw [scanOne_digit hdigit]
        rw [hnegative, hwhole] at hscan
        exact congrArg _ hscan

/-- **Tokens are scanned from however they are written**, unless two numbers are neighbours. -/
theorem scanFrom_of_allWrittenAs (h : AllWrittenAs ts cs) (hapart : ts.IsChain Apart)
    (before : List Token) : scanFrom before (cs.map some) = some (before.reverse ++ ts) := by
  induction h generalizing before with
  | nil => rw [List.map_nil, scanFrom, List.append_nil]
  | blank hblank _ ih => rw [List.map_cons, scanFrom, if_pos hblank, ih hapart]
  | @token t ts row cs first rest ih =>
    obtain ⟨hnext, hapart⟩ := List.isChain_cons.mp hapart
    have hends (hnumber : t.isNumber = true) : Ends (cs.map some) :=
      rest.ends fun u hu => (hnext u hu).resolve_left (by simp [hnumber])
    obtain ⟨c, later, rfl, hblank, hscan⟩ := first.exists_eq_cons hends
    rw [List.cons_append, List.map_cons, List.map_append, scanFrom, if_neg (by simp [hblank])]
    split
    · next hfound =>
      rw [hscan] at hfound
      cases hfound
      rw [ih hapart, List.reverse_cons, List.append_assoc, List.singleton_append]
    · next hfound =>
      rw [hscan] at hfound
      cases hfound

end Token

namespace Json

/-! ## The reader puts the value together again -/

open Reader

/-- Where the first item of a list may come, it is read like any other. -/
theorem foldlM_firstItem (item : Json) (items : List Json) (about : List Pending)
    (rest : List Token) :
    (itemTokens (item :: items) ++ rest).foldlM take? (firstItem about)
      = (itemTokens (item :: items) ++ rest).foldlM take? (value (.item [] :: about)) := by
  cases items <;> cases item <;> rfl

theorem foldlM_firstMember (member : StringLiteral × Json) (members : List (StringLiteral × Json))
    (about : List Pending) (rest : List Token) :
    (memberTokens (member :: members) ++ rest).foldlM take? (firstMember about)
      = (memberTokens (member :: members) ++ rest).foldlM take? (nextMember [] about) := by
  cases members <;> rfl

mutual

/-- **The tokens of a value are read as that value**, wherever a value may come. -/
theorem foldlM_tokens (j : Json) (about : List Pending) (rest : List Token) :
    (j.tokens ++ rest).foldlM take? (value about) = rest.foldlM take? (put j about) := by
  match j with
  | null | boolean _ | number _ | string _ | list [] | object [] => rfl
  | list (item :: items) =>
    rw [tokens, List.append_assoc, List.cons_append]
    show (itemTokens (item :: items) ++ .closeList :: rest).foldlM take? (firstItem about) = _
    rw [foldlM_firstItem, foldlM_itemTokens _ (by simp), List.reverse_nil, List.nil_append]
  | object (member :: members) =>
    rw [tokens, List.append_assoc, List.cons_append]
    show (memberTokens (member :: members) ++ .closeObject :: rest).foldlM take? (firstMember about)
      = _
    rw [foldlM_firstMember, foldlM_memberTokens _ (by simp), List.reverse_nil,
      List.nil_append]

theorem foldlM_itemTokens (items : List Json) (h : items ≠ []) (before : List Json)
    (about : List Pending) (rest : List Token) :
    (itemTokens items ++ .closeList :: rest).foldlM take? (value (.item before :: about))
      = rest.foldlM take? (put (.list (before.reverse ++ items)) about) := by
  match items with
  | [] => exact absurd rfl h
  | [item] =>
    rw [itemTokens, foldlM_tokens item]
    show rest.foldlM take? (put (.list (item :: before).reverse) about) = _
    rw [List.reverse_cons]
  | item :: next :: items =>
    simp only [itemTokens, List.append_assoc, List.cons_append]
    rw [foldlM_tokens item]
    show (itemTokens (next :: items) ++ .closeList :: rest).foldlM take?
      (value (.item (item :: before) :: about)) = _
    rw [foldlM_itemTokens (next :: items) (by simp), List.reverse_cons, List.append_assoc,
      List.singleton_append]

theorem foldlM_memberTokens (members : List (StringLiteral × Json)) (h : members ≠ [])
    (before : List (StringLiteral × Json)) (about : List Pending) (rest : List Token) :
    (memberTokens members ++ .closeObject :: rest).foldlM take? (nextMember before about)
      = rest.foldlM take? (put (.object (before.reverse ++ members)) about) := by
  match members with
  | [] => exact absurd rfl h
  | [(name, held)] =>
    simp only [memberTokens, List.cons_append]
    show (held.tokens ++ .closeObject :: rest).foldlM take?
      (value (.member before name :: about)) = _
    rw [foldlM_tokens held]
    show rest.foldlM take? (put (.object ((name, held) :: before).reverse) about) = _
    rw [List.reverse_cons]
  | (name, held) :: next :: members =>
    simp only [memberTokens, List.append_assoc, List.cons_append]
    show (held.tokens ++ .comma :: (memberTokens (next :: members) ++ .closeObject :: rest)).foldlM
      take? (value (.member before name :: about)) = _
    rw [foldlM_tokens held]
    show (memberTokens (next :: members) ++ .closeObject :: rest).foldlM take?
      (nextMember ((name, held) :: before) about) = _
    rw [foldlM_memberTokens (next :: members) (by simp), List.reverse_cons, List.append_assoc,
      List.singleton_append]

end

theorem ofTokens?_tokens (j : Json) : ofTokens? j.tokens = some j := by
  have hread := foldlM_tokens j [] []
  rw [List.append_nil] at hread
  rw [ofTokens?, hread]
  rfl

/-! ## Texts of values -/

/-- After a number the reader takes no other number. -/
theorem isNumber_of_take? {r next : Reader} {t u : Token} (ht : r.take? t = some next)
    (hnumber : t.isNumber = true) (hu : (next.take? u).isSome = true) : u.isNumber = false := by
  have hput (j : Json) (about : List Pending) (hu : ((put j about).take? u).isSome = true) :
      u.isNumber = false := by
    cases u with
    | number n => rcases about with _ | ⟨_ | _, _⟩ <;> cases hu
    | _ => rfl
  cases t with
  | number n =>
    cases r with
    | value about | firstItem about =>
      cases ht
      exact hput _ _ hu
    | _ => cases ht
  | _ => cases hnumber

/-- **Where the reader takes all tokens, no two neighbours are numbers.** -/
theorem isChain_apart_of_foldlM {r next : Reader} {ts : List Token}
    (h : ts.foldlM take? r = some next) : ts.IsChain Token.Apart := by
  induction ts generalizing r with
  | nil => exact .nil
  | cons t ts ih =>
    obtain ⟨after, ht, hts⟩ := Option.bind_eq_some_iff.mp h
    refine List.isChain_cons.mpr ⟨fun u hu => ?_, ih hts⟩
    cases ts with
    | nil => cases hu
    | cons first ts =>
      cases hu
      obtain ⟨_, hfirst, -⟩ := Option.bind_eq_some_iff.mp hts
      cases hnumber : t.isNumber with
      | false => exact .inl hnumber
      | true => exact .inr (isNumber_of_take? ht hnumber (by rw [hfirst]; rfl))

/-- **How a value may be written.** -/
def WrittenAs (j : Json) (cs : List Char) : Prop := Token.AllWrittenAs j.tokens cs

variable {j : Json}

/-- **A value is read from however it is written.** -/
theorem ofSymbols?_of_writtenAs {cs : List Char} (h : j.WrittenAs cs) :
    ofSymbols? (cs.map some) = some j := by
  have hread := foldlM_tokens j [] []
  rw [List.append_nil] at hread
  have hscan := Token.scanFrom_of_allWrittenAs h (isChain_apart_of_foldlM hread) []
  rw [ofSymbols?, Token.scan?, hscan]
  exact ofTokens?_tokens j

theorem ofString?_of_writtenAs {text : String} (h : j.WrittenAs text.toList) :
    ofString? text = some j :=
  ofSymbols?_of_writtenAs h

theorem ofBytes?_of_writtenAs {text : String} (h : j.WrittenAs text.toList) :
    ofBytes? text.toUTF8 = some j := by
  rw [ofBytes?, Symbol.ofBytes_toUTF8]
  exact ofString?_of_writtenAs h

end Json

end AgentSweep
