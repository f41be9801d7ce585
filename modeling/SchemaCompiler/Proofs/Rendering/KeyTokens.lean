import SchemaCompiler.Proofs.Rendering.Keys
import SchemaCompiler.Proofs.Rendering.Literals

/-!
Keys of object literals as tokens. A key is an identifier or a string literal that stands for the name
it was made from, with two exceptions: an identifier with a line feed behind it is taken for an
identifier, and a carriage return cuts a literal off.
-/
namespace SchemaCompiler

namespace Literal

variable {cs more : List Char} {name : String}

/-- A key that is, in its entirety, an identifier equal to a name or a string literal for it. -/
inductive IsKeyOf (key : List Char) (name : String) : Prop
  | bare (h : IsBare key) (hname : name.toList = key)
  | quoted (h : readLiteral key = some (name, []))

/-- An identifier with a line feed behind it. -/
def IsStray (name : String) : Prop := ∃ cs, IsBare cs ∧ name.toList = cs ++ ['\n']

/-- The name that the key at the start of a source stands for, and what follows the key. -/
def readKey : List Char → Option (String × List Char)
  | [] => none
  | c :: rest =>
    if c = '\x27' then readLiteral (c :: rest)
    else if startsIdentifier c then
      some (.ofList (c :: rest.takeWhile continuesIdentifier), rest.dropWhile continuesIdentifier)
    else none

theorem isStray_iff : IsStray name ↔
    isIdentifier name.toList = true ∧ name.toList.getLast? = some '\n' := by
  constructor
  · rintro ⟨front, hbare, hname⟩
    refine ⟨isIdentifier_iff.mpr (.inr ⟨front, hbare, hname⟩), ?_⟩
    rw [hname, List.getLast?_concat]
  · rintro ⟨hid, hlast⟩
    rcases isIdentifier_iff.mp hid with hbare | hstray
    · exact absurd hlast hbare.getLast?_ne
    · exact hstray

instance : DecidablePred IsStray := fun _ => decidable_of_iff _ isStray_iff.symm

theorem IsBare.key_eq (h : IsBare name.toList) : key name = name :=
  if_pos (isIdentifier_iff.mpr (.inl h))

theorem IsStray.key_eq (h : IsStray name) : key name = name := if_pos (isIdentifier_iff.mpr (.inr h))

theorem key_eq_quote (hbare : ¬ IsBare name.toList) (hstray : ¬ IsStray name) :
    key name = quote name := by
  refine if_neg ?_
  rw [isIdentifier_iff]
  rintro (h | h)
  · exact hbare h
  · exact hstray h

theorem IsStray.not_isBare (h : IsStray name) : ¬ IsBare name.toList := by
  obtain ⟨front, _, hname⟩ := h
  intro hbare
  exact hbare.not_mem (d := '\n') (by decide) (by simp [hname])

theorem readKey_bare (h : IsBare cs) (hmore : ∀ d ∈ more.head?, continuesIdentifier d = false) :
    readKey (cs ++ more) = some (.ofList cs, more) := by
  have hquote : '\x27' ∉ cs := h.not_mem (by decide)
  obtain ⟨htake, hdrop⟩ := h.split hmore
  obtain ⟨c, rest, rfl, hc, _⟩ := h
  have hne : c ≠ '\x27' := by
    rintro rfl
    exact hquote List.mem_cons_self
  have hcont : continuesIdentifier c = true := by simp [continuesIdentifier, hc]
  rw [List.cons_append, List.takeWhile_cons_of_pos hcont] at htake
  rw [List.cons_append, List.dropWhile_cons_of_pos hcont] at hdrop
  rw [List.cons_append, readKey, if_neg hne, if_pos hc, (List.cons.inj htake).2, hdrop]

theorem readKey_quote (s : String) (more : List Char) :
    readKey ((quote s).toList ++ more) = if '\r' ∈ s.toList then none else some (s, more) := by
  rw [← readLiteral_quote, quote_append]
  rfl

/-- A key in front of a colon. The line feed of a stray name is left between the two. -/
theorem readKey_key (name : String) (more : List Char) :
    (IsStray name → ∃ front, name.toList = front ++ ['\n'] ∧
      readKey ((key name).toList ++ ':' :: more) = some (.ofList front, '\n' :: ':' :: more)) ∧
    (¬ IsStray name → readKey ((key name).toList ++ ':' :: more) =
      if '\r' ∈ name.toList then none else some (name, ':' :: more)) := by
  constructor
  · rintro ⟨front, hbare, hname⟩
    refine ⟨front, hname, ?_⟩
    rw [IsStray.key_eq ⟨front, hbare, hname⟩, hname, List.append_assoc]
    exact readKey_bare hbare (by rintro _ ⟨⟩; decide)
  · intro hstray
    by_cases hbare : IsBare name.toList
    · rw [hbare.key_eq, if_neg (hbare.not_mem (by decide)), readKey_bare hbare, String.ofList_toList]
      rintro _ ⟨⟩
      decide
    · rw [key_eq_quote hbare hstray]
      exact readKey_quote name _

theorem IsStray.readLiteral_eq (h : IsStray name) : readLiteral name.toList = none := by
  obtain ⟨front, ⟨c, rest, rfl, hc, _⟩, hname⟩ := h
  rw [hname]
  unfold readLiteral
  split
  · next heq =>
    rw [(List.cons.inj heq).1] at hc
    exact absurd hc (by decide)
  · rfl

/-- The names that a key stands for in its entirety. -/
theorem isKeyOf_key_iff :
    IsKeyOf (key name).toList name ↔ '\r' ∉ name.toList ∧ ¬ IsStray name := by
  have hread : readLiteral (quote name).toList = some (name, []) ↔ '\r' ∉ name.toList := by
    have hquote := readLiteral_quote name []
    rw [List.append_nil] at hquote
    rw [hquote]
    split <;> simp_all
  by_cases hbare : IsBare name.toList
  · have hstray : ¬ IsStray name := fun h => h.not_isBare hbare
    rw [hbare.key_eq]
    exact ⟨fun _ => ⟨hbare.not_mem (by decide), hstray⟩, fun _ => .bare hbare rfl⟩
  by_cases hstray : IsStray name
  · rw [hstray.key_eq]
    constructor
    · rintro (⟨h, _⟩ | h)
      · exact absurd h hbare
      · rw [hstray.readLiteral_eq] at h
        cases h
    · rintro ⟨_, h⟩
      exact absurd hstray h
  · rw [key_eq_quote hbare hstray]
    constructor
    · rintro (⟨h, hname⟩ | h)
      · rw [← hname] at h
        exact absurd h hbare
      · exact ⟨hread.mp h, hstray⟩
    · rintro ⟨hreturn, _⟩
      exact .quoted (hread.mpr hreturn)

/-- A line of an object literal whose key stands for a name and ends at the colon. -/
def IsLineOf (name line : String) : Prop := ∃ rest, readKey line.toList = some (name, ':' :: rest)

theorem isLineOf_iff (name expression : String) :
    IsLineOf name (key name ++ ": " ++ expression ++ ",") ↔
      '\r' ∉ name.toList ∧ ¬ IsStray name := by
  obtain ⟨more, hline⟩ : ∃ more, (key name ++ ": " ++ expression ++ ",").toList =
      (key name).toList ++ ':' :: more := ⟨' ' :: (expression.toList ++ [',']), by simp⟩
  obtain ⟨hleft, hread⟩ := readKey_key name more
  rw [IsLineOf, hline]
  by_cases hstray : IsStray name
  · obtain ⟨front, _, hcut⟩ := hleft hstray
    simp [hcut, hstray]
  · by_cases hreturn : '\r' ∈ name.toList
    · simp [hread hstray, hreturn]
    · simp [hread hstray, hreturn, hstray]

end Literal

namespace Rendered

open Literal

variable {r : Registry} {d : Declaration} {v : Rendered}

/-- The lines between the first and the last one of an object literal, without their indentation. -/
def entryLines (v : Rendered) : List String :=
  v.fields.map fun f => f.key ++ ": " ++ f.expression ++ ","

theorem validatorLines_eq (t : Target) (h : v.isEnum = false) : SourceText.validatorLines t v =
    s!"export const {v.symbol} = {t.objectCall}(\x7b" ::
      v.entryLines.map ("  " ++ ·) ++ ["\x7d);"] := by
  have hlines : v.fields.map (fun f => s!"  {f.key}: {f.expression},") =
      v.entryLines.map ("  " ++ ·) := by
    rw [entryLines, List.map_map]
    apply List.map_congr_left
    intro f _
    simp only [Function.comp_apply, ← String.append_assoc]
    rfl
  rw [SourceText.validatorLines, h, hlines]
  rfl

/-- A line for each field, with the key of its name. -/
theorem entryLines_made (h : ofDeclaration r d = .ok v) : List.Forall₂
    (fun f line => ∃ e, line = key f.name ++ ": " ++ e ++ ",") d.fields v.entryLines := by
  rw [entryLines, List.forall₂_map_right_iff]
  refine (views_of_ofDeclaration h).1.imp fun f view hview => ?_
  obtain ⟨e, _, hview⟩ := Text.bind_eq_ok_iff.mp hview
  cases hview
  exact ⟨e, rfl⟩

end Rendered

namespace Literal

variable {r : Registry} {d : Declaration}

theorem forall₂_isLineOf_iff {fields : List Field} {lines : List String}
    (h : List.Forall₂ (fun f line => ∃ e, line = key f.name ++ ": " ++ e ++ ",") fields lines) :
    List.Forall₂ (fun f line => IsLineOf f.name line) fields lines ↔
      ∀ f ∈ fields, '\r' ∉ f.name.toList ∧ ¬ IsStray f.name := by
  induction h with
  | nil => simp
  | cons hline _ ih =>
    obtain ⟨e, rfl⟩ := hline
    rw [List.forall₂_cons, isLineOf_iff, ih, List.forall_mem_cons]

/-- The keys of lines for fields stand for the names of the fields. -/
theorem names_of_lines {fields : List Field} {lines : List String}
    (h : List.Forall₂ (fun f line => IsLineOf f.name line) fields lines) :
    (lines.map fun line => (readKey line.toList).map (·.1)) = fields.map fun f => some f.name := by
  induction h with
  | nil => rfl
  | cons hline _ ih =>
    obtain ⟨rest, hread⟩ := hline
    rw [List.map_cons, List.map_cons, hread, ih]
    rfl

/-- A key is an identifier equal to its name or a string literal for it, and nothing else, unless the
name is an identifier with a line feed behind it or holds a carriage return. In the object literal of a
declaration with different names each line has a key for its field in front of the colon, and no two
keys stand for one name, exactly if none of the names is of these two kinds. -/
theorem keys_denote_iff (ht : r.target ∈ Target.all) (hobject : d.isEnum = false)
    (hnames : (d.fields.map (·.name)).Nodup) :
    (∀ name, IsKeyOf (key name).toList name ↔ '\r' ∉ name.toList ∧ ¬ IsStray name) ∧
    ∃ v lines, Rendered.ofDeclaration r d = .ok v ∧
      SourceText.validatorLines r.target v =
        s!"export const {v.symbol} = {r.target.objectCall}(\x7b" ::
          lines.map ("  " ++ ·) ++ ["\x7d);"] ∧
      (List.Forall₂ (fun f line => IsLineOf f.name line) d.fields lines ∧
        (lines.map fun line => (readKey line.toList).map (·.1)).Nodup ↔
          ∀ f ∈ d.fields, '\r' ∉ f.name.toList ∧ ¬ IsStray f.name) := by
  refine ⟨fun name => isKeyOf_key_iff, ?_⟩
  obtain ⟨v, hv, _⟩ := exists_rendered (Target.isPlain_of_mem_all ht) d
  have hkind : v.isEnum = false := (Rendered.shows_of_ofDeclaration hv).isEnum.trans hobject
  have hiff := forall₂_isLineOf_iff (Rendered.entryLines_made hv)
  refine ⟨v, v.entryLines, hv, Rendered.validatorLines_eq _ hkind, ?_⟩
  rw [← hiff]
  constructor
  · rintro ⟨hlines, _⟩
    exact hlines
  · intro hlines
    refine ⟨hlines, ?_⟩
    have hsome : (d.fields.map fun f => some f.name) = (d.fields.map (·.name)).map some := by
      rw [List.map_map]
      rfl
    rw [names_of_lines hlines, hsome]
    exact hnames.map (Option.some_injective _)

/-- An object with names that are identifiers and names that only look like them. -/
def keyed : Declaration := ⟨"Keyed", .object, "", [
  ⟨"$meta", .primitive "string" "", "", false, true⟩,
  ⟨"2fa", .primitive "boolean" "", "", false, true⟩,
  ⟨"a b\n", .primitive "string" "", "", true, false⟩,
  ⟨"a: b,", .primitive "string" "", "", false, false⟩,
  ⟨"it's", .primitive "string" "", "", false, false⟩], [], []⟩

theorem keyed_keys : (Registry.defaults .zod).target ∈ Target.all ∧ keyed.isEnum = false ∧
    (keyed.fields.map (·.name)).Nodup ∧
    ∃ v lines, Rendered.ofDeclaration (.defaults .zod) keyed = .ok v ∧
      List.Forall₂ (fun f line => IsLineOf f.name line) keyed.fields lines ∧
      (lines.map fun line => (readKey line.toList).map (·.1)).Nodup := by
  have ht : (Registry.defaults .zod).target ∈ Target.all := List.mem_cons_of_mem _ List.mem_cons_self
  have hnames : (keyed.fields.map (·.name)).Nodup := by decide
  obtain ⟨_, v, lines, hv, _, hiff⟩ := keys_denote_iff ht (d := keyed) rfl hnames
  exact ⟨ht, rfl, hnames, v, lines, hv, hiff.mpr (by decide)⟩

/-- A line feed behind an identifier is no part of the key, which then stands for another name. -/
theorem line_feed_left_out : key "a\n" = "a\n" ∧ ¬ IsKeyOf (key "a\n").toList "a\n" ∧
    readKey ((key "a\n") ++ ": t.string,").toList = some ("a", "\n: t.string,".toList) ∧
    readKey ((key "a") ++ ": t.string,").toList = some ("a", ": t.string,".toList) := by
  refine ⟨by decide, ?_, by decide, by decide⟩
  intro h
  exact (isKeyOf_key_iff.mp h).2 (by decide)

end Literal
end SchemaCompiler
