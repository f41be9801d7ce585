import Mathlib.Data.List.Forall2
import SchemaCompiler.Rendered
import SchemaCompiler.Target.Builtin

/-!
Patterns whose places only name a value. They can be filled whenever their values are given, and the
targets that come with the library have no other patterns.
-/
namespace SchemaCompiler

namespace Text

/-- The names of the places in the patterns of targets. -/
def placeNames : List String := ["element", "members", "literal", "expr", "format", "symbol"]

/-- A literal, or a place that names one of some values and asks for nothing else. -/
def Piece.isPlain (names : List String) : Piece → Bool
  | .literal _ => true
  | .place p =>
    placeNames.contains p.name && names.contains p.name && p.conversion.isNone && !p.nested &&
      p.width == ""

/-- A pattern without faults in which every piece is plain. -/
def isPlain (names : List String) (pattern : String) : Bool :=
  (Pattern.parse pattern).fault.isNone && (Pattern.parse pattern).pieces.all (·.isPlain names)

/-- A place that only names a value refers to the value. -/
theorem referent_of_mem {p : Place} {values : List (String × String)} {x : String}
    (hp : p.name ∈ placeNames) (hx : values.lookup p.name = some x) :
    p.referent values = .ok (.text x) := by
  obtain ⟨name, conversion, width, nested⟩ := p
  have hfirst : ∀ name ∈ placeNames,
      String.ofList (name.toList.takeWhile fun c => c != '.' && c != '[') = name := by decide
  unfold Place.referent
  simp only [hfirst name hp, hx]
  simp only [placeNames, List.mem_cons, List.not_mem_nil, or_false] at hp
  rcases hp with rfl | rfl | rfl | rfl | rfl | rfl <;> rfl

section

variable {ε α β : Type}

/-- Two steps go through when the first does and the second does for every value. -/
theorem bind_ok {t : Except ε α} {f : α → Except ε β} (ht : ∃ a, t = .ok a)
    (hf : ∀ a, ∃ b, f a = .ok b) : ∃ b, t >>= f = .ok b := by
  obtain ⟨a, rfl⟩ := ht
  exact hf a

/-- A step after another goes through exactly when both do. -/
theorem bind_eq_ok_iff {t : Except ε α} {f : α → Except ε β} {b : β} :
    t >>= f = .ok b ↔ ∃ a, t = .ok a ∧ f a = .ok b := by
  cases t with
  | error e => exact ⟨fun h => (nomatch h), fun ⟨_, h, _⟩ => (nomatch h)⟩
  | ok a => exact ⟨fun h => ⟨a, rfl, h⟩, fun ⟨_, h, hf⟩ => by cases h; exact hf⟩

theorem mapM_congr {f g : α → Except ε β} {xs : List α} (h : ∀ x ∈ xs, f x = g x) :
    xs.mapM f = xs.mapM g := by
  induction xs with
  | nil => rfl
  | cons x rest ih =>
    obtain ⟨hx, hrest⟩ := List.forall_mem_cons.mp h
    rw [List.mapM_cons, List.mapM_cons, hx, ih hrest]

theorem forall₂_of_mapM {f : α → Except ε β} {xs : List α} {ys : List β}
    (h : xs.mapM f = .ok ys) : List.Forall₂ (fun x y => f x = .ok y) xs ys := by
  induction xs generalizing ys with
  | nil =>
    cases h
    exact .nil
  | cons x rest ih =>
    rw [List.mapM_cons] at h
    obtain ⟨y, hy, h⟩ := bind_eq_ok_iff.mp h
    obtain ⟨zs, hzs, h⟩ := bind_eq_ok_iff.mp h
    cases h
    exact .cons hy (ih hzs)

theorem mapM_eq_ok_iff {f : α → Except ε β} {xs : List α} {ys : List β} :
    xs.mapM f = .ok ys ↔ List.Forall₂ (fun x y => f x = .ok y) xs ys := by
  refine ⟨forall₂_of_mapM, fun h => ?_⟩
  induction h with
  | nil => rfl
  | cons hxy _ ih =>
    rw [List.mapM_cons, hxy, ih]
    rfl

theorem exists_right_of_mem {motive : α → β → Prop} {xs : List α} {ys : List β}
    (h : List.Forall₂ motive xs ys) {x : α} (hx : x ∈ xs) : ∃ y ∈ ys, motive x y := by
  induction h with
  | nil => cases hx
  | cons h _ ih =>
    rcases List.mem_cons.mp hx with rfl | hx
    · exact ⟨_, List.mem_cons_self, h⟩
    · obtain ⟨y, hy, hxy⟩ := ih hx
      exact ⟨y, List.mem_cons_of_mem _ hy, hxy⟩

theorem exists_left_of_mem {motive : α → β → Prop} {xs : List α} {ys : List β}
    (h : List.Forall₂ motive xs ys) {y : β} (hy : y ∈ ys) : ∃ x ∈ xs, motive x y :=
  exists_right_of_mem (List.Forall₂.flip (R := fun y x => motive x y) h) hy

theorem mapM_forall₂ {f : α → Except ε β} {xs : List α} {motive : α → β → Prop}
    (hf : ∀ x ∈ xs, ∃ y, f x = .ok y ∧ motive x y) :
    ∃ ys, xs.mapM f = .ok ys ∧ List.Forall₂ motive xs ys := by
  induction xs with
  | nil => exact ⟨[], rfl, .nil⟩
  | cons x rest ih =>
    obtain ⟨y, hy, hxy⟩ := hf x (by simp)
    obtain ⟨ys, hys, hrest⟩ := ih fun z hz => hf z (by simp [hz])
    refine ⟨y :: ys, ?_, .cons hxy hrest⟩
    rw [List.mapM_cons, hy, hys]
    rfl

theorem mapM_ok {f : α → Except ε β} {xs : List α} (hf : ∀ x ∈ xs, ∃ y, f x = .ok y) :
    ∃ ys, xs.mapM f = .ok ys := by
  obtain ⟨ys, hys, _⟩ := mapM_forall₂ (motive := fun _ _ => True)
    fun x hx => (hf x hx).imp fun y hy => ⟨hy, trivial⟩
  exact ⟨ys, hys⟩

end

/-- The width part of a plain place is empty, which leaves a text as it is. -/
theorem aligned_empty (x : String) : aligned "" (.text x) = .ok x := by
  obtain ⟨a, ha, happly⟩ : ∃ a, Alignment.parse? "" = .ok a ∧ ∀ x, a.apply x = x :=
    ⟨_, rfl, fun x => by simp [Alignment.apply]⟩
  simp only [aligned, ha, happly]

/-- The text of a plain place is the value that it names. -/
theorem placeText_eq {names : List String} {values : List (String × String)} {p : Place}
    {x : String} {depth : Nat} (hp : (Piece.place p).isPlain names)
    (hx : values.lookup p.name = some x) :
    (do
      let r ← convert (← p.referent values) p.conversion
      let width ← if p.nested then fillTo values depth p.width else pure p.width
      aligned width r) = .ok x := by
  simp only [Piece.isPlain, Bool.and_eq_true, List.contains_iff_mem, Option.isNone_iff_eq_none,
    Bool.not_eq_true', beq_iff_eq] at hp
  obtain ⟨⟨⟨⟨hknown, _⟩, hconversion⟩, hnested⟩, hwidth⟩ := hp
  simp only [referent_of_mem hknown hx, hconversion, hnested, hwidth]
  exact aligned_empty x

/-- The text that a plain piece is filled with. -/
def Piece.filled (values : List (String × String)) : Piece → String
  | .literal c => c.toString
  | .place p => (values.lookup p.name).getD ""

/-- A pattern with plain places is filled when their values are given, each place with its value. -/
theorem fill_eq {names : List String} {pattern : String} {values : List (String × String)}
    (hp : isPlain names pattern) (hv : ∀ name ∈ names, (values.lookup name).isSome) :
    fill pattern values =
      .ok (String.join ((Pattern.parse pattern).pieces.map (·.filled values))) := by
  obtain ⟨hfault, hpieces⟩ := Bool.and_eq_true_iff.mp hp
  rw [Option.isNone_iff_eq_none] at hfault
  rw [fill, fillTo]
  -- A pattern is read to its first fault, so a fault is asked for only after the pieces.
  refine bind_eq_ok_iff.mpr ⟨_, mapM_eq_ok_iff.mpr ?_, by rw [hfault]; rfl⟩
  rw [List.forall₂_map_right_iff, List.forall₂_same]
  intro piece hpiece
  have hplain := List.all_eq_true.mp hpieces piece hpiece
  cases piece with
  | literal c => rfl
  | place p =>
    have hname : p.name ∈ names := by
      simp only [Piece.isPlain, Bool.and_eq_true, List.contains_iff_mem] at hplain
      exact hplain.1.1.1.2
    obtain ⟨x, hx⟩ := Option.isSome_iff_exists.mp (hv p.name hname)
    rw [Piece.filled, hx]
    exact placeText_eq hplain hx

theorem exists_fill {names : List String} {pattern : String} {values : List (String × String)}
    (hp : isPlain names pattern) (hv : ∀ name ∈ names, (values.lookup name).isSome) :
    ∃ s, fill pattern values = .ok s :=
  ⟨_, fill_eq hp hv⟩

theorem exists_fill_one {name pattern : String} (hp : isPlain [name] pattern) (x : String) :
    ∃ s, fill pattern [(name, x)] = .ok s :=
  exists_fill hp (by simp)

/-- Whether a place of a pattern has a name. -/
def mentions (name pattern : String) : Bool :=
  (Pattern.parse pattern).pieces.any fun
    | .literal _ => false
    | .place p => p.name == name

/-- A value stands in a filled pattern that mentions its name. -/
theorem infix_of_fill {names : List String} {pattern name x s : String}
    {values : List (String × String)} (hp : isPlain names pattern) (hm : mentions name pattern)
    (hx : values.lookup name = some x) (h : fill pattern values = .ok s) :
    x.toList <:+: s.toList := by
  obtain ⟨_, hpieces⟩ := Bool.and_eq_true_iff.mp hp
  rw [fill, fillTo] at h
  obtain ⟨texts, htexts, h⟩ := bind_eq_ok_iff.mp h
  obtain ⟨piece, hpiece, hname⟩ := List.any_eq_true.mp hm
  have hplain := List.all_eq_true.mp hpieces piece hpiece
  obtain ⟨text, htext, hfilled⟩ := exists_right_of_mem (forall₂_of_mapM htexts) hpiece
  have hmem : x ∈ texts := by
    cases piece with
    | literal c => cases hname
    | place p =>
      rw [beq_iff_eq] at hname
      cases (placeText_eq hplain (hname ▸ hx)).symm.trans hfilled
      exact htext
  cases hfault : (Pattern.parse pattern).fault with
  | some f =>
    rw [hfault] at h
    cases h
  | none =>
    rw [hfault] at h
    cases h
    rw [String.toList_join]
    exact List.infix_of_mem_flatten (List.mem_map_of_mem hmem)

end Text

open Text (bind_ok mapM_ok exists_fill exists_fill_one)

/-- A target whose patterns are all plain. -/
structure Target.IsPlain (t : Target) : Prop where
  array : Text.isPlain ["element"] t.arrayPattern
  enum : Text.isPlain ["members"] t.enumPattern
  member : Text.isPlain ["literal"] t.memberPattern
  nullable : Text.isPlain ["expr"] t.nullablePattern
  optional : Text.isPlain ["expr"] t.optionalPattern
  unknownFormat : Text.isPlain ["expr", "format"] t.unknownFormatPattern
  staticType : Text.isPlain ["symbol"] t.staticTypePattern
  partialVariant : Text.isPlain ["symbol"] t.partialPattern
  validate : Text.isPlain ["symbol"] t.validatePattern
  guard : Text.isPlain ["symbol"] t.guardPattern

theorem Target.isPlain_of_mem_all {t : Target} (ht : t ∈ Target.all) : t.IsPlain := by
  rcases List.mem_cons.mp ht with rfl | ht
  · constructor <;> decide +kernel
  · rw [List.mem_singleton.mp ht]
    constructor <;> decide +kernel

section

variable {r : Registry} {f : Field}

theorem Target.IsPlain.exists_enumExpression {t : Target} (ht : t.IsPlain)
    (members : List String) : ∃ s, t.enumExpression members = .ok s :=
  bind_ok (mapM_ok fun _ _ => exists_fill_one ht.member _) fun _ => exists_fill_one ht.enum _

theorem Registry.primitive_plain {name format : String} (h : name ≠ "string" ∨ format = "") :
    r.primitive name format = .ok (r.target.primitives.validator name) := by
  rcases h with hname | rfl
  · simp [primitive, hname]
  · simp [primitive]

theorem Registry.primitive_formatted {format : String} (hne : format ≠ "") :
    r.primitive "string" format = match r.get? format with
      | some b => .ok b.validator
      | none => Text.fill r.target.unknownFormatPattern
          [("expr", r.target.primitives.validator "string"),
            ("format", Literal.inComment format)] := by
  have hread : ¬ ("string" != "string" || format == "") = true := by simpa using hne
  exact if_neg hread

/-- Texts with a format are the only primitives that look at a binding. -/
theorem Registry.plain_or_formatted (name format : String) :
    (name ≠ "string" ∨ format = "") ∨ name = "string" ∧ format ≠ "" := by
  by_cases hplain : name ≠ "string" ∨ format = ""
  · exact .inl hplain
  · obtain ⟨hname, hne⟩ := not_or.mp hplain
    exact .inr ⟨not_not.mp hname, hne⟩

theorem exists_primitive (ht : r.target.IsPlain) (name format : String) :
    ∃ s, r.primitive name format = .ok s := by
  rcases Registry.plain_or_formatted name format with hplain | ⟨rfl, hne⟩
  · exact ⟨_, Registry.primitive_plain hplain⟩
  · rw [Registry.primitive_formatted hne]
    split
    · exact ⟨_, rfl⟩
    · exact exists_fill ht.unknownFormat (by simp [List.lookup_cons])

/-- Every shape has a validator. -/
theorem exists_validator (ht : r.target.IsPlain) : ∀ s : Shape, ∃ e, s.validator r = .ok e
  | .primitive name format => exists_primitive ht name format
  | .array element => by
    rw [Shape.validator]
    exact bind_ok (exists_validator ht element) fun _ => exists_fill_one ht.array _
  | .reference target => ⟨_, rfl⟩
  | .enum _ _ members => ht.exists_enumExpression members
  | .object (some target) _ => ⟨_, rfl⟩
  | .object none _ => ⟨_, rfl⟩

/-- An expression with the modifiers of a field, null first. -/
def Target.modified (t : Target) (nullable required : Bool) (plain : String) :
    Except Text.PatternError String :=
  (if nullable then Text.fill t.nullablePattern [("expr", plain)] else .ok plain) >>= fun e =>
    if required then .ok e else Text.fill t.optionalPattern [("expr", e)]

theorem Field.validator_eq (r : Registry) (f : Field) :
    f.validator r = f.shape.validator r >>= r.target.modified f.nullable f.required := by
  rw [Field.validator]
  congr 1
  funext plain
  rw [Target.modified]
  cases f.nullable <;> rfl

theorem Target.IsPlain.exists_modified {t : Target} (ht : t.IsPlain) (nullable required : Bool)
    (plain : String) : ∃ e, t.modified nullable required plain = .ok e := by
  refine bind_ok ?_ fun e => ?_
  · split
    · exact exists_fill_one ht.nullable _
    · exact ⟨_, rfl⟩
  · split
    · exact ⟨_, rfl⟩
    · exact exists_fill_one ht.optional _

theorem exists_fieldValidator (ht : r.target.IsPlain) (f : Field) :
    ∃ e, f.validator r = .ok e := by
  rw [Field.validator_eq]
  exact bind_ok (exists_validator ht f.shape) (ht.exists_modified f.nullable f.required)

theorem exists_fieldView (ht : r.target.IsPlain) (f : Field) : ∃ view,
    Rendered.fieldView r f = .ok view ∧ view.name = f.name ∧
      f.validator r = .ok view.expression := by
  obtain ⟨e, he⟩ := exists_fieldValidator ht f
  refine ⟨⟨Literal.key f.name, f.name, e, f.staticType r, f.description, f.required⟩, ?_, rfl, he⟩
  rw [Rendered.fieldView, he]
  rfl

theorem exists_symbolText {pattern : String} (hp : Text.isPlain ["symbol"] pattern)
    (wanted : Bool) (symbol : String) : ∃ s, Rendered.symbolText wanted pattern symbol = .ok s := by
  rw [Rendered.symbolText]
  split
  · exact exists_fill_one hp _
  · exact ⟨_, rfl⟩

theorem Rendered.blame_eq_ok {name : String} {field : Option String} {α : Type} {a : α}
    {result : Except Text.PatternError α} :
    blame name field result = .ok a ↔ result = .ok a := by
  cases result with
  | ok b => simp [blame]
  | error e => exact ⟨fun h => (nomatch h), fun h => (nomatch h)⟩

/-- The texts of a declaration apart from its fields, in the order in which they are made. -/
def Rendered.ownTexts (r : Registry) (d : Declaration) : List (Except Text.PatternError String) :=
  let t := r.target
  let symbol := t.symbol d.name
  let hasPartial := r.generation.partials && !d.isEnum
  [if d.isEnum then t.enumExpression d.members else .ok "",
    symbolText true t.staticTypePattern symbol,
    symbolText hasPartial t.partialPattern symbol,
    symbolText hasPartial t.staticTypePattern (if hasPartial then t.partialSymbol d.name else ""),
    symbolText r.generation.helpers t.validatePattern symbol,
    symbolText r.generation.helpers t.guardPattern symbol]

/-- A declaration with its fields and its own texts, which come in their order. -/
def Rendered.ofTexts (r : Registry) (d : Declaration) (fields : List FieldView) (texts : List String) :
    Rendered where
  name := d.name
  moduleName := Naming.kebab d.name
  symbol := r.target.symbol d.name
  description := d.description
  doc := DocComment.lines d.description fields
  isEnum := d.isEnum
  fields := fields
  enumExpression := texts.getD 0 ""
  staticType := texts.getD 1 ""
  partialSymbol := if r.generation.partials && !d.isEnum then r.target.partialSymbol d.name else ""
  partialExpression := texts.getD 2 ""
  partialStaticType := texts.getD 3 ""
  validateExpression := texts.getD 4 ""
  guardExpression := texts.getD 5 ""
  formats := d.usedFormats
  references := d.referencedNames

theorem Rendered.ofFields_eq (r : Registry) (d : Declaration) (fields : List FieldView) :
    ofFields r d fields = (ownTexts r d).mapM id >>= fun texts => .ok (ofTexts r d fields texts) := by
  simp only [ofFields, ownTexts, ofTexts, List.mapM_cons, List.mapM_nil, bind_assoc, pure_bind, id]
  cases d.isEnum with
  | false =>
    simp only [Bool.false_eq_true, if_false]
    rfl
  | true =>
    simp only [if_true]
    rfl

/-- The texts of a declaration never fail, and they keep the fields. -/
theorem exists_ofFields (ht : r.target.IsPlain) (d : Declaration) (fields : List FieldView) :
    ∃ v, Rendered.ofFields r d fields = .ok v ∧ v.fields = fields := by
  have hown : ∀ text ∈ Rendered.ownTexts r d, ∃ s, text = .ok s := by
    have henum : ∃ s, (if d.isEnum then r.target.enumExpression d.members else .ok "") = .ok s := by
      split
      · exact ht.exists_enumExpression d.members
      · exact ⟨_, rfl⟩
    simp only [Rendered.ownTexts, List.forall_mem_cons]
    exact ⟨henum, exists_symbolText ht.staticType _ _, exists_symbolText ht.partialVariant _ _,
      exists_symbolText ht.staticType _ _, exists_symbolText ht.validate _ _,
      exists_symbolText ht.guard _ _, by simp⟩
  obtain ⟨texts, htexts⟩ := mapM_ok hown
  refine ⟨Rendered.ofTexts r d fields texts, ?_, rfl⟩
  rw [Rendered.ofFields_eq]
  exact Text.bind_eq_ok_iff.mpr ⟨texts, htexts, rfl⟩

/-- Every declaration can be rendered, with its fields in order and each with its validator. -/
theorem exists_rendered (ht : r.target.IsPlain) (d : Declaration) :
    ∃ v, Rendered.ofDeclaration r d = .ok v ∧ List.Forall₂
      (fun f view => view.name = f.name ∧ f.validator r = .ok view.expression)
        d.fields v.fields := by
  obtain ⟨views, hviews, hfields⟩ : ∃ views, d.fields.mapM (fun f => Rendered.blame d.name
      (some f.name) (Rendered.fieldView r f)) = .ok views ∧ List.Forall₂
      (fun f view => view.name = f.name ∧ f.validator r = .ok view.expression)
        d.fields views := by
    refine Text.mapM_forall₂ fun f _ => ?_
    obtain ⟨view, hview, hname, he⟩ := exists_fieldView ht f
    exact ⟨view, by rw [hview]; rfl, hname, he⟩
  obtain ⟨v, hv, hkept⟩ := exists_ofFields ht d views
  refine ⟨v, ?_, by rw [hkept]; exact hfields⟩
  rw [Rendered.ofDeclaration, hviews]
  change Rendered.blame d.name none (Rendered.ofFields r d views) = .ok v
  rw [hv]
  rfl

end

end SchemaCompiler
