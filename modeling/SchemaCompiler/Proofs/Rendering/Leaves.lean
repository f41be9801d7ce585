import SchemaCompiler.Proofs.Layout.Modes

/-!
Leaves of shapes. A binding shows in the validator of a shape exactly when the shape inside all arrays
is a text with the format of the binding, and so the import lines of a module are those that its
validators need.
-/
namespace SchemaCompiler

variable {r : Registry} {s : Shape} {format : String} {b : Binding} {d : Declaration}

namespace Text

theorem join_chars (cs : List Char) : String.join (cs.map Char.toString) = String.ofList cs := by
  rw [← String.toList_inj, String.toList_join, List.flatMap_map, String.toList_ofList]
  induction cs with
  | nil => rfl
  | cons c cs ih =>
    rw [List.flatMap_cons, ih]
    simp

/-- Literals are filled with themselves. -/
theorem join_literals (values : List (String × String)) (cs : List Char) :
    String.join ((cs.map Piece.literal).map (·.filled values)) = String.ofList cs := by
  rw [List.map_map]
  exact join_chars cs

/-- A pattern that is literal around one place puts the value between two texts. -/
theorem fill_around {pattern name : String} (before after : List Char) (p : Place)
    (hplain : isPlain [name] pattern)
    (hpieces : (Pattern.parse pattern).pieces =
      before.map .literal ++ .place p :: after.map .literal) (x : String) :
    fill pattern [(name, x)] = .ok (String.ofList before ++ x ++ String.ofList after) := by
  have hname : p.name = name := by
    have hall := List.all_eq_true.mp (Bool.and_eq_true_iff.mp hplain).2
    rw [hpieces] at hall
    have hplace : (Piece.place p).isPlain [name] := hall _ (by simp)
    simp only [Piece.isPlain, Bool.and_eq_true, List.contains_iff_mem, List.mem_singleton] at hplace
    exact hplace.1.1.1.2
  have hvalue : (Piece.place p).filled [(name, x)] = x := by simp [Piece.filled, hname]
  rw [fill_eq hplain (by simp), hpieces, List.map_append, List.map_cons, String.join_append,
    String.join_cons, join_literals, join_literals, hvalue, String.append_assoc]

end Text

/-- A step that puts an expression between two texts, neither of which holds a slash. -/
def Surrounds (wrap : String → Except Text.PatternError String) : Prop :=
  ∃ before after : List Char, '/' ∉ before ∧ '/' ∉ after ∧
    ∀ e, wrap e = .ok (String.ofList before ++ e ++ String.ofList after)

namespace Target

variable {t : Target}

theorem surrounds_of_pieces {pattern name : String} (before after : List Char) (p : Text.Place)
    (hplain : Text.isPlain [name] pattern)
    (hpieces : (Text.Pattern.parse pattern).pieces =
      before.map .literal ++ .place p :: after.map .literal)
    (hbefore : '/' ∉ before) (hafter : '/' ∉ after) :
    Surrounds fun e => Text.fill pattern [(name, e)] :=
  ⟨before, after, hbefore, hafter, Text.fill_around before after p hplain hpieces⟩

/-- Arrays put the validator of their element between two texts. -/
theorem surrounds_array (ht : t ∈ all) :
    Surrounds fun e => Text.fill t.arrayPattern [("element", e)] := by
  have hplain := (isPlain_of_mem_all ht).array
  rcases List.mem_cons.mp ht with rfl | ht
  · exact surrounds_of_pieces "t.array(".toList [')'] ⟨"element", none, "", false⟩ hplain rfl
      (by decide) (by decide)
  · cases List.mem_singleton.mp ht
    exact surrounds_of_pieces "z.array(".toList [')'] ⟨"element", none, "", false⟩ hplain rfl
      (by decide) (by decide)

end Target

namespace Registry

theorem get?_empty (r : Registry) : r.get? "" = none := rfl

theorem get?_of_ne (r : Registry) (hne : format ≠ "") : r.get? format = r.bindings.get? format :=
  if_neg fun heq => hne (beq_iff_eq.mp heq)

theorem get?_bind (r : Registry) (format other : String) (b : Binding) :
    (r.bind format b).1.get? other =
      if other = format ∧ format ≠ "" then some b else r.get? other := by
  by_cases hempty : other = ""
  · subst hempty
    rw [get?_empty, get?_empty, if_neg]
    rintro ⟨rfl, hne⟩
    exact hne rfl
  · have hput := Table.get?_insert r.bindings format other b
    rw [get?_of_ne _ hempty, get?_of_ne _ hempty]
    by_cases hsame : other = format
    · subst hsame
      rw [if_pos ⟨rfl, hempty⟩]
      exact hput.trans (if_pos rfl)
    · rw [if_neg fun h => hsame h.1]
      exact hput.trans (if_neg hsame)

/-- Binding a format changes nothing where the format is not looked up. -/
theorem agreeOn_bind (r : Registry) (b : Binding) {formats : List String}
    (h : format ≠ "" → format ∉ formats) : r.AgreeOn formats (r.bind format b).1 := by
  refine ⟨rfl, rfl, fun other hother => ?_⟩
  rw [get?_bind, if_neg]
  rintro ⟨rfl, hne⟩
  exact h hne hother

end Registry

namespace Shape

/-- The shape inside all arrays. -/
def leaf : Shape → Shape
  | .array element => element.leaf
  | s => s

theorem mem_formats : ∀ {s : Shape},
    format ∈ s.formats ↔ format ≠ "" ∧ s.leaf = .primitive "string" format
  | .primitive name given => by
    have hleaf : (Shape.primitive name given).leaf = .primitive name given := rfl
    rw [formats, hleaf]
    by_cases hread : name = "string" ∧ given ≠ ""
    · rw [if_pos (by simpa using hread), List.mem_singleton, primitive.injEq]
      constructor
      · rintro rfl
        exact ⟨hread.2, hread.1, rfl⟩
      · rintro ⟨_, _, rfl⟩
        rfl
    · rw [if_neg (by simpa using hread), primitive.injEq]
      constructor
      · exact fun h => absurd h List.not_mem_nil
      · rintro ⟨hne, rfl, rfl⟩
        exact absurd ⟨rfl, hne⟩ hread
  | .array element => mem_formats (s := element)
  | .reference _ => by simp [formats, leaf]
  | .enum _ _ _ => by simp [formats, leaf]
  | .object _ _ => by simp [formats, leaf]

/-- The validator of a shape has that of the binding of a format at a place, where any other binding
of the format would stand as well. -/
def Inserts (r : Registry) (format : String) (b : Binding) (s : Shape) : Prop :=
  r.get? format = some b ∧ ∃ before after,
    s.validator r = .ok (before ++ b.validator ++ after) ∧
      ∀ c, s.validator (r.bind format c).1 = .ok (before ++ c.validator ++ after)

theorem validator_leaf (hne : format ≠ "") (hb : r.get? format = some b) :
    (Shape.primitive "string" format).validator r = .ok b.validator := by
  rw [validator, Registry.primitive_formatted hne, hb]

/-- Arrays keep a place for the validator of their leaf. -/
theorem exists_around (ht : r.target ∈ Target.all) : ∀ {s : Shape}, format ≠ "" →
    s.leaf = .primitive "string" format → ∃ before after, ∀ (r' : Registry) (b : Binding),
      r'.target = r.target → r'.get? format = some b →
        s.validator r' = .ok (before ++ b.validator ++ after)
  | .primitive name given, hne, hleaf => by
    cases hleaf
    refine ⟨"", "", fun r' b _ hb => ?_⟩
    rw [validator_leaf hne hb, String.empty_append, String.append_empty]
  | .array element, hne, hleaf => by
    obtain ⟨before, after, helement⟩ := exists_around ht (s := element) hne hleaf
    obtain ⟨front, back, _, _, harray⟩ := Target.surrounds_array ht
    refine ⟨.ofList front ++ before, after ++ .ofList back, fun r' b htarget hb => ?_⟩
    have hfill : (Shape.array element).validator r' =
        Text.fill r.target.arrayPattern [("element", before ++ b.validator ++ after)] := by
      rw [validator, helement r' b htarget hb, htarget]
      rfl
    refine hfill.trans ((harray _).trans ?_)
    simp only [String.append_assoc]
  | .reference _, _, hleaf => nomatch hleaf
  | .enum _ _ _, _, hleaf => nomatch hleaf
  | .object _ _, _, hleaf => nomatch hleaf

/-- The bindings that show in a validator are those of the formats of texts at a leaf. -/
theorem inserts_iff (ht : r.target ∈ Target.all) : s.Inserts r format b ↔
    r.get? format = some b ∧ s.leaf = .primitive "string" format := by
  constructor
  · rintro ⟨hb, before, after, _, hany⟩
    refine ⟨hb, ?_⟩
    by_contra hleaf
    -- The format is not looked up, so all bindings of it give one validator.
    have hsame (c : Binding) : s.validator r = s.validator (r.bind format c).1 :=
      validator_congr (r.agreeOn_bind c fun _ hmem => hleaf (mem_formats.mp hmem).2)
    have hshort := (hsame ⟨"", "", ""⟩).trans (hany _)
    have hlong := (hsame ⟨"t", "", ""⟩).trans (hany _)
    have heq := Except.ok.inj (hshort.symm.trans hlong)
    have hlength := congrArg String.length heq
    simp at hlength
  · rintro ⟨hb, hleaf⟩
    have hne : format ≠ "" := by
      rintro rfl
      cases hb
    obtain ⟨before, after, hplace⟩ := exists_around ht hne hleaf
    refine ⟨hb, before, after, hplace r b rfl hb, fun c => hplace _ c rfl ?_⟩
    rw [Registry.get?_bind, if_pos ⟨rfl, hne⟩]

end Shape

theorem Declaration.mem_usedFormats : format ∈ d.usedFormats ↔
    format ≠ "" ∧ ∃ f ∈ d.fields, f.shape.leaf = .primitive "string" format := by
  rw [usedFormats, mem_sortNames, List.mem_flatMap]
  simp only [Shape.mem_formats]
  constructor
  · rintro ⟨f, hf, hne, hleaf⟩
    exact ⟨hne, f, hf, hleaf⟩
  · rintro ⟨hne, f, hf, hleaf⟩
    exact ⟨f, hf, hne, hleaf⟩

namespace Layout

/-- The import lines of a module after that of the library. -/
def neededImports (r : Registry) (d : Declaration) : List String :=
  sortNames ((r.imports d.usedFormats).filter (· != r.target.baseImport))

theorem mem_neededImports (ht : r.target ∈ Target.all) {line : String} :
    line ∈ neededImports r d ↔ line ≠ "" ∧ line ≠ r.target.baseImport ∧
      ∃ f ∈ d.fields, ∃ format b, f.shape.Inserts r format b ∧ b.importLine = line := by
  rw [neededImports, mem_sortNames, List.mem_filter, bne_iff_ne]
  constructor
  · rintro ⟨hline, hbase⟩
    obtain ⟨format, hformat, hlookup, hne⟩ := (mem_imports hbase).mp hline
    obtain ⟨_, f, hf, hleaf⟩ := Declaration.mem_usedFormats.mp hformat
    obtain ⟨b, hb, rfl⟩ := Option.map_eq_some_iff.mp hlookup
    exact ⟨hne, hbase, f, hf, format, b, (Shape.inserts_iff ht).mpr ⟨hb, hleaf⟩, rfl⟩
  · rintro ⟨hne, hbase, f, hf, format, b, hinserts, rfl⟩
    obtain ⟨hb, hleaf⟩ := (Shape.inserts_iff ht).mp hinserts
    have hformat : format ≠ "" := by
      rintro rfl
      cases hb
    have hused := Declaration.mem_usedFormats.mpr ⟨hformat, f, hf, hleaf⟩
    exact ⟨(mem_imports hbase).mpr ⟨format, hused, by rw [hb]; rfl, hne⟩, hbase⟩

/-- What a module imports: the library, and then in strict order, so once each, the lines of the
bindings that show in its validators. -/
structure ImportsNeeded (r : Registry) (d : Declaration) (v : Rendered) (lines : List String) :
    Prop where
  rendered : Rendered.ofDeclaration r d = .ok v
  planned : ∀ package ds p, r.output.mode = .multiple → ofDeclarations r package ds = .ok p →
    d ∈ ordered ds → ∃ vs, moduleFile r vs v ∈ p.files
  content : ∀ vs, (moduleFile r vs v).content = SourceText.unlines
    (SourceText.schemaHeader d.name :: (r.target.baseImport :: lines) ++ siblingImports vs v ++
      "" :: SourceText.definition r.target v)
  sorted : lines.Pairwise (· < ·)
  needed : ∀ line, line ∈ lines ↔ line ≠ "" ∧ line ≠ r.target.baseImport ∧
    ∃ f ∈ d.fields, ∃ format b, f.shape.Inserts r format b ∧ b.importLine = line

/-- The imports of a module are those that its validators need. A binding for a format of no text at
a leaf changes nothing. -/
theorem imports_exact (ht : r.target ∈ Target.all) (d : Declaration) :
    ∃ v lines, ImportsNeeded r d v lines ∧
      (∀ f ∈ d.fields, ∀ format b, f.shape.Inserts r format b ↔
        r.get? format = some b ∧ f.shape.leaf = .primitive "string" format) ∧
      ∀ format b, (∀ f ∈ d.fields, format ≠ "" → f.shape.leaf ≠ .primitive "string" format) →
        ImportsNeeded (r.bind format b).1 d v lines := by
  obtain ⟨v, hv, _⟩ := exists_rendered (Target.isPlain_of_mem_all ht) d
  have hneeded (r' : Registry) (ht' : r'.target ∈ Target.all)
      (hv' : Rendered.ofDeclaration r' d = .ok v) : ImportsNeeded r' d v (neededImports r' d) := by
    have hshown := Rendered.shows_of_ofDeclaration hv'
    refine ⟨hv', fun package ds p hm hp hd => ?_, fun vs => ?_, sortNames_sorted,
      fun line => mem_neededImports ht'⟩
    · obtain ⟨vs, hplan⟩ := exists_planned hp
      obtain ⟨w, hw, hrendered⟩ := Text.exists_right_of_mem hplan.rendered hd
      cases hv'.symm.trans hrendered
      exact ⟨vs, hplan.moduleFile_mem (Registry.isSingleFile_of_multiple hm) hw⟩
    rw [moduleFile, SourceText.moduleText, hshown.name, hshown.formats, imports_eq]
    rfl
  refine ⟨v, neededImports r d, hneeded r ht hv, fun f _ format b => Shape.inserts_iff ht, ?_⟩
  intro format b hunused
  have hagree : r.AgreeOn d.usedFormats (r.bind format b).1 := by
    refine r.agreeOn_bind b fun hne hused => ?_
    obtain ⟨_, f, hf, hleaf⟩ := Declaration.mem_usedFormats.mp hused
    exact hunused f hf hne hleaf
  have hlines : neededImports r d = neededImports (r.bind format b).1 d := by
    rw [neededImports, Registry.imports_congr hagree]
    rfl
  rw [hlines]
  exact hneeded _ ht ((Rendered.ofDeclaration_congr hagree).symm.trans hv)

/-- Times at two depths, a number with the format of a time, and a time of an object in place. -/
def timed : Declaration := ⟨"Timed", .object, "", [
  ⟨"at", .primitive "string" "date-time", "", false, true⟩,
  ⟨"count", .primitive "integer" "date-time", "", false, true⟩,
  ⟨"days", .array (.array (.primitive "string" "date-time")), "", true, false⟩,
  ⟨"meta", .object none (some ⟨"Meta", .object, "",
    [⟨"id", .primitive "string" "date-time", "", false, true⟩], [], []⟩), "", false, true⟩],
  [], []⟩

theorem timed_imports : Target.ioTs ∈ Target.all ∧ ∃ v, ImportsNeeded (.defaults .ioTs) timed v
    ["import \x7b DateFromISOString \x7d from 'io-ts-types';"] := by
  refine ⟨List.mem_cons_self, ?_⟩
  obtain ⟨v, lines, hlines, hinserts, _⟩ :=
    @imports_exact (.defaults .ioTs) List.mem_cons_self timed
  have hbound : (Registry.defaults .ioTs).get? "date-time" = some ⟨"DateFromISOString", "Date",
    "import \x7b DateFromISOString \x7d from 'io-ts-types';"⟩ := rfl
  suffices h : lines = ["import \x7b DateFromISOString \x7d from 'io-ts-types';"] from
    ⟨v, h ▸ hlines⟩
  refine hlines.sorted.eq_of_mem_iff (List.pairwise_singleton _ _) fun line => ?_
  rw [hlines.needed, List.mem_singleton]
  constructor
  · rintro ⟨_, _, f, hf, format, b, hshows, rfl⟩
    obtain ⟨hb, hleaf⟩ := (hinserts f hf format b).mp hshows
    have hformat : format = "date-time" := by
      simp only [timed, List.mem_cons, List.not_mem_nil, or_false] at hf
      rcases hf with rfl | rfl | rfl | rfl
      · exact ((Shape.primitive.inj hleaf).2).symm
      · exact absurd (Shape.primitive.inj hleaf).1 (by decide)
      · exact ((Shape.primitive.inj hleaf).2).symm
      · cases hleaf
    subst hformat
    cases hb.symm.trans hbound
    rfl
  · rintro rfl
    have hshows := (hinserts _ List.mem_cons_self _ _).mpr ⟨hbound, rfl⟩
    exact ⟨by decide, by decide, _, List.mem_cons_self, _, _, hshows, rfl⟩

end Layout
end SchemaCompiler
