import AgentSweep.Proofs.Json.Grammar

/-!
# Values are read back

A value whose literals are well formed (`Json.Sound`) is read back from its compact text as well as
from its laid-out text. The two texts differ in blanks only: both of them spell the tokens of the
value (`Token.Spells`), and what spells the tokens of a value is a text of it.
-/

namespace AgentSweep

namespace Token

/-! ## Spelling -/

/-- A token whose literal, if it is one, is read back. -/
def Sound : Token → Prop
  | number n => n.Sound
  | string s => StringLiteral.Sound s
  | _ => True

/-- **Characters that spell some tokens**, with blanks between them. After a number there must be
something at which it ends. -/
inductive Spells : List Char → List Token → Prop where
  | nil : Spells [] []
  | blank {c : Char} {cs : List Char} {ts : List Token} (hblank : isBlank c = true)
      (hrest : Spells cs ts) : Spells (c :: cs) ts
  | token {t : Token} {cs : List Char} {ts : List Token} (hsound : t.Sound)
      (hends : ∀ n, t = number n → Ends (cs.map some)) (hrest : Spells cs ts) :
      Spells (t.chars ++ cs) (t :: ts)

variable {cs : List Char} {ts : List Token}

theorem Sound.writtenAs {t : Token} (h : t.Sound) : t.WrittenAs t.chars := by
  cases t with
  | number n => exact .number (NumberLiteral.Sound.writtenAs h)
  | string s => exact .string (StringLiteral.Sound.writtenAs h)
  | _ => exact .mark trivial

/-- Tokens may be written as they are spelled. -/
theorem Spells.allWrittenAs (h : Spells cs ts) : AllWrittenAs ts cs := by
  induction h with
  | nil => exact .nil
  | blank hblank _ ih => exact .blank hblank ih
  | token hsound _ _ ih => exact .token hsound.writtenAs ih

/-- A mark may be followed by anything. -/
theorem Spells.mark {t : Token} (hmark : t.IsMark) (hrest : Spells cs ts) :
    Spells (t.chars ++ cs) (t :: ts) := by
  cases t with
  | number | string => exact hmark.elim
  | _ => exact .token trivial (by rintro _ ⟨⟩) hrest

theorem Spells.string {s : StringLiteral} (h : s.Sound) (hrest : Spells cs ts) :
    Spells ((string s).chars ++ cs) (string s :: ts) :=
  .token (t := .string s) h (by rintro _ ⟨⟩) hrest

/-- A number ends before the mark that follows a value. -/
theorem ends_mark {t : Token} (h : t ∈ [comma, closeList, closeObject]) (cs : List Char) :
    Ends ((t.chars ++ cs).map some) := by
  simp only [List.mem_cons, List.not_mem_nil, or_false] at h
  rcases h with rfl | rfl | rfl <;> exact Ends.cons rfl (by decide) (by decide) (by decide)

end Token

namespace Json

open Token

/-- **A value whose literals are read back.** -/
inductive Sound : Json → Prop where
  | null : Sound null
  | boolean {b : Bool} : Sound (boolean b)
  | number {n : NumberLiteral} (h : n.Sound) : Sound (number n)
  | string {s : StringLiteral} (h : s.Sound) : Sound (string s)
  | list {items : List Json} (h : ∀ item ∈ items, item.Sound) : Sound (list items)
  | object {members : List (StringLiteral × Json)} (hname : ∀ m ∈ members, m.1.Sound)
      (hvalue : ∀ m ∈ members, m.2.Sound) : Sound (object members)

/-! ## The compact text spells the tokens -/

mutual

/-- **The compact text of a value spells its tokens**, before anything at which a number ends. -/
theorem spells_tokens (j : Json) (h : j.Sound) {cs : List Char} {ts : List Token}
    (hends : Ends (cs.map some)) (hrest : Spells cs ts) :
    Spells (j.tokens.flatMap Token.chars ++ cs) (j.tokens ++ ts) := by
  cases h with
  | null => exact .mark (t := .null) trivial hrest
  | @boolean b =>
    simpa only [tokens, List.flatMap_singleton, List.singleton_append]
      using hrest.mark (t := .boolean b) trivial
  | @string s h =>
    simpa only [tokens, List.flatMap_singleton, List.singleton_append] using hrest.string h
  | @number n h =>
    simpa only [tokens, List.flatMap_singleton, List.singleton_append]
      using Spells.token (t := .number n) h (fun _ _ => hends) hrest
  | @list items h =>
    have hitems := spells_itemTokens items h (ends_mark (t := .closeList) (by decide) _)
      (hrest.mark trivial)
    simpa only [tokens, List.flatMap_cons, List.flatMap_append, List.flatMap_nil, List.append_nil,
      List.append_assoc, List.cons_append, List.nil_append]
      using hitems.mark (t := .openList) trivial
  | @object members hname hvalue =>
    have hmembers := spells_memberTokens members hname hvalue
      (ends_mark (t := .closeObject) (by decide) _) (hrest.mark trivial)
    simpa only [tokens, List.flatMap_cons, List.flatMap_append, List.flatMap_nil, List.append_nil,
      List.append_assoc, List.cons_append, List.nil_append]
      using hmembers.mark (t := .openObject) trivial

theorem spells_itemTokens (items : List Json) (h : ∀ item ∈ items, item.Sound)
    {cs : List Char} {ts : List Token} (hends : Ends (cs.map some)) (hrest : Spells cs ts) :
    Spells ((itemTokens items).flatMap Token.chars ++ cs) (itemTokens items ++ ts) := by
  match items with
  | [] => exact hrest
  | [item] => exact spells_tokens item (h item List.mem_cons_self) hends hrest
  | item :: next :: items =>
    have hnext := spells_itemTokens (next :: items) (fun i hi => h i (List.mem_cons_of_mem _ hi))
      hends hrest
    have hitem := spells_tokens item (h item List.mem_cons_self)
      (ends_mark (t := .comma) (by decide) _) (hnext.mark trivial)
    simpa only [itemTokens, List.flatMap_cons, List.flatMap_append, List.append_assoc,
      List.cons_append] using hitem

theorem spells_memberTokens (members : List (StringLiteral × Json))
    (hname : ∀ m ∈ members, m.1.Sound) (hvalue : ∀ m ∈ members, m.2.Sound)
    {cs : List Char} {ts : List Token} (hends : Ends (cs.map some)) (hrest : Spells cs ts) :
    Spells ((memberTokens members).flatMap Token.chars ++ cs) (memberTokens members ++ ts) := by
  match members with
  | [] => exact hrest
  | [(name, value)] =>
    have hvalue := spells_tokens value (hvalue _ List.mem_cons_self) hends hrest
    have hcolon := hvalue.mark (t := .colon) trivial
    simpa only [memberTokens, List.flatMap_cons, List.append_assoc, List.cons_append]
      using hcolon.string (hname _ List.mem_cons_self)
  | (name, value) :: next :: members =>
    have hnext := spells_memberTokens (next :: members)
      (fun m hm => hname m (List.mem_cons_of_mem _ hm))
      (fun m hm => hvalue m (List.mem_cons_of_mem _ hm)) hends hrest
    have hvalue := spells_tokens value (hvalue _ List.mem_cons_self)
      (ends_mark (t := .comma) (by decide) _) (hnext.mark trivial)
    have hcolon := hvalue.mark (t := .colon) trivial
    simpa only [memberTokens, List.flatMap_cons, List.flatMap_append, List.append_assoc,
      List.cons_append] using hcolon.string (hname _ List.mem_cons_self)

end

/-! ## The laid-out text spells them as well -/

theorem spells_newline (depth : Nat) {cs : List Char} {ts : List Token} (h : Spells cs ts) :
    Spells (newline depth ++ cs) ts := by
  have hspaces (count : Nat) : Spells (List.replicate count ' ' ++ cs) ts := by
    induction count with
    | zero => exact h
    | succ count ih => exact .blank rfl ih
  exact .blank rfl (hspaces _)

theorem ends_newline (depth : Nat) (cs : List Char) : Ends ((newline depth ++ cs).map some) :=
  Ends.cons rfl (by decide) (by decide) (by decide)

mutual

/-- **The laid-out text of a value spells its tokens**, before anything at which a number ends. -/
theorem spells_layout (depth : Nat) (j : Json) (h : j.Sound) {cs : List Char} {ts : List Token}
    (hends : Ends (cs.map some)) (hrest : Spells cs ts) :
    Spells (j.layout depth ++ cs) (j.tokens ++ ts) := by
  cases h with
  | null => exact hrest.mark (t := .null) trivial
  | @boolean b => exact hrest.mark (t := .boolean b) trivial
  | @string s h => exact hrest.string h
  | @number n h => exact .token (t := .number n) h (fun _ _ => hends) hrest
  | @list items h =>
    have hclose := hrest.mark (t := .closeList) trivial
    match items with
    | [] => exact hclose.mark (t := .openList) trivial
    | item :: items =>
      have hitems := spells_itemLayout (depth + 1) (item :: items) h (ends_newline depth _)
        (spells_newline depth hclose)
      simpa only [layout, tokens, Token.chars, List.append_assoc, List.cons_append,
        List.nil_append]
        using hitems.mark (t := .openList) trivial
  | @object members hname hvalue =>
    have hclose := hrest.mark (t := .closeObject) trivial
    match members with
    | [] => exact hclose.mark (t := .openObject) trivial
    | member :: members =>
      have hmembers := spells_memberLayout (depth + 1) (member :: members) hname hvalue
        (ends_newline depth _) (spells_newline depth hclose)
      simpa only [layout, tokens, Token.chars, List.append_assoc, List.cons_append,
        List.nil_append]
        using hmembers.mark (t := .openObject) trivial

theorem spells_itemLayout (depth : Nat) (items : List Json) (h : ∀ item ∈ items, item.Sound)
    {cs : List Char} {ts : List Token} (hends : Ends (cs.map some)) (hrest : Spells cs ts) :
    Spells (itemLayout depth items ++ cs) (itemTokens items ++ ts) := by
  match items with
  | [] => exact hrest
  | [item] =>
    have hitem := spells_layout depth item (h item List.mem_cons_self) hends hrest
    simpa only [itemLayout, itemTokens, List.append_assoc] using spells_newline depth hitem
  | item :: next :: items =>
    have hnext := spells_itemLayout depth (next :: items)
      (fun i hi => h i (List.mem_cons_of_mem _ hi)) hends hrest
    have hitem := spells_layout depth item (h item List.mem_cons_self)
      (ends_mark (t := .comma) (by decide) _) (hnext.mark trivial)
    simpa only [itemLayout, itemTokens, Token.chars, List.append_assoc, List.cons_append,
      List.nil_append] using spells_newline depth hitem

theorem spells_memberLayout (depth : Nat) (members : List (StringLiteral × Json))
    (hname : ∀ m ∈ members, m.1.Sound) (hvalue : ∀ m ∈ members, m.2.Sound)
    {cs : List Char} {ts : List Token} (hends : Ends (cs.map some)) (hrest : Spells cs ts) :
    Spells (memberLayout depth members ++ cs) (memberTokens members ++ ts) := by
  match members with
  | [] => exact hrest
  | [(name, value)] =>
    have hvalue := spells_layout depth value (hvalue _ List.mem_cons_self) hends hrest
    have hcolon := Spells.mark (t := .colon) trivial (.blank (c := ' ') rfl hvalue)
    simpa only [memberLayout, memberTokens, Token.chars, List.append_assoc, List.cons_append,
      List.nil_append] using spells_newline depth (hcolon.string (hname _ List.mem_cons_self))
  | (name, value) :: next :: members =>
    have hnext := spells_memberLayout depth (next :: members)
      (fun m hm => hname m (List.mem_cons_of_mem _ hm))
      (fun m hm => hvalue m (List.mem_cons_of_mem _ hm)) hends hrest
    have hvalue := spells_layout depth value (hvalue _ List.mem_cons_self)
      (ends_mark (t := .comma) (by decide) _) (hnext.mark trivial)
    have hcolon := Spells.mark (t := .colon) trivial (.blank (c := ' ') rfl hvalue)
    simpa only [memberLayout, memberTokens, Token.chars, List.append_assoc, List.cons_append,
      List.nil_append] using spells_newline depth (hcolon.string (hname _ List.mem_cons_self))

end

/-! ## Both texts are read -/

variable {j : Json}

theorem writtenAs_text (h : j.Sound) : j.WrittenAs j.text.toList := by
  have hspells := @spells_tokens j h [] [] .nil .nil
  rw [List.append_nil, List.append_nil] at hspells
  rw [text, String.toList_ofList]
  exact hspells.allWrittenAs

theorem writtenAs_pretty (h : j.Sound) : j.WrittenAs j.pretty.toList := by
  have hspells := @spells_layout 0 j h [] [] .nil .nil
  rw [List.append_nil, List.append_nil] at hspells
  rw [pretty, String.toList_ofList]
  exact hspells.allWrittenAs

/-- **A value is read back from its compact text.** -/
theorem ofString?_text (h : j.Sound) : ofString? j.text = some j :=
  ofString?_of_writtenAs (writtenAs_text h)

/-- **A value is read back from its laid-out text.** -/
theorem ofString?_pretty (h : j.Sound) : ofString? j.pretty = some j :=
  ofString?_of_writtenAs (writtenAs_pretty h)

theorem ofBytes?_pretty (h : j.Sound) : ofBytes? j.pretty.toUTF8 = some j :=
  ofBytes?_of_writtenAs (writtenAs_pretty h)

end Json

end AgentSweep
