import SchemaCompiler.Proofs.Generation.Stages

/-!
Runs that go through. When the output folder can be made and each planned file can be written there, or
is there and kept, then a run writes or keeps all of them.
-/
namespace SchemaCompiler

namespace Generation

open Activity

variable {r : Registry} {ds : List Declaration} {options : Options} {p : Plan}
  {folder : Path} {file : PlannedFile} {files : List PlannedFile} {w w' : World}
  {t t' t'' : FileTree}

/-- A planned file that can be written, or one that is there and is to be kept. -/
def Writable (t : FileTree) (folder : Path) (file : PlannedFile) : Prop :=
  (file.overwrite = false ∧ t.exists? (file.path folder) = .ok true) ∨
    ∃ t', t.write (file.path folder) file.content = (t', .ok ())

/-- The trees of a run differ at the places of planned files, by what is planned there. -/
def Puts (folder : Path) (files : List PlannedFile) (t t' : FileTree) : Prop :=
  ∀ l, t'.get? l = t.get? l ∨
    ∃ g ∈ files, (g.path folder).location = l ∧ t'.get? l = some (.file g.content.toUTF8)

/-- What becomes of a planned file: a file is written at its place, or what was there is kept. -/
inductive Delivered (before after : FileTree) (folder : Path) (files : List PlannedFile)
    (file : PlannedFile) : Prop
  | written (g : PlannedFile) (hg : g ∈ files)
      (hplace : (g.path folder).location = (file.path folder).location)
      (hfind : after.find (file.path folder) = .ok (.file g.content.toUTF8))
  | kept (e : FileEntry) (hkeep : file.overwrite = false)
      (hbefore : before.find (file.path folder) = .ok e)
      (hafter : after.find (file.path folder) = .ok e)

theorem Delivered.exists_entry (h : Delivered t t' folder files file) :
    ∃ e, t'.find (file.path folder) = .ok e := by
  cases h with
  | written g _ _ hfind => exact ⟨_, hfind⟩
  | kept e _ _ hafter => exact ⟨e, hafter⟩

theorem writable_iff : Writable t folder file ↔
    t.locate (file.path folder) = .ok (file.path folder).location ∧
      (file.overwrite = false ∧ (t.get? (file.path folder).location).isSome ∨
        t.get? (file.path folder).location ≠ some .folder ∧ t.contentFault? file.content = none) := by
  constructor
  · rintro (⟨hkeep, hexists⟩ | ⟨t', hwrite⟩)
    · obtain ⟨hlocate, hentry⟩ := FileTree.exists?_eq_true.mp hexists
      exact ⟨hlocate, .inl ⟨hkeep, hentry⟩⟩
    · obtain ⟨hlocate, hentry, hencodes, _⟩ := FileTree.write_eq_ok.mp hwrite
      exact ⟨hlocate, .inr ⟨hentry, hencodes⟩⟩
  · rintro ⟨hlocate, ⟨hkeep, hentry⟩ | ⟨hentry, hencodes⟩⟩
    · exact .inl ⟨hkeep, FileTree.exists?_eq_true.mpr ⟨hlocate, hentry⟩⟩
    · exact .inr ⟨_, FileTree.write_eq_ok.mpr ⟨hlocate, hentry, hencodes, rfl⟩⟩

/-- What is written does not get into the way of what is still to be written. -/
theorem Writable.of_write {g : PlannedFile} (h : Writable t folder file)
    (hwrite : t.write (g.path folder) g.content = (t', .ok ())) : Writable t' folder file := by
  obtain ⟨hlocate, hentry⟩ := writable_iff.mp h
  have hwrites : FileTree.WritesAt (fun _ => True) t t' := FileTree.writesAt_write hwrite trivial
  refine writable_iff.mpr ⟨hwrites.locate hlocate, ?_⟩
  rw [FileTree.get?_write hwrite, FileTree.contentFault?_congr hwrites.surrogates]
  rcases hentry with ⟨hkeep, hthere⟩ | ⟨hfolder, hencodes⟩
  · left
    refine ⟨hkeep, ?_⟩
    split
    · rfl
    · exact hthere
  · right
    refine ⟨?_, hencodes⟩
    split
    · exact nofun
    · exact hfolder

theorem Puts.refl (t : FileTree) : Puts folder files t t := fun _ => .inl rfl

theorem Puts.trans (h₁ : Puts folder files t t') (h₂ : Puts folder files t' t'') :
    Puts folder files t t'' := by
  intro l
  rcases h₂ l with hsame | hput
  · rw [hsame]
    exact h₁ l
  · exact .inr hput

instance : IsPreorder FileTree (Puts folder files) where
  refl := .refl
  trans _ _ _ := .trans

theorem Puts.isSome (h : Puts folder files t t') {l : Location} (hl : (t.get? l).isSome) :
    (t'.get? l).isSome := by
  rcases h l with hsame | ⟨_, _, _, hput⟩
  · rwa [hsame]
  · rw [hput]
    rfl

theorem puts_write (hfile : file ∈ files)
    (hwrite : t.write (file.path folder) file.content = (t', .ok ())) : Puts folder files t t' := by
  intro l
  rw [FileTree.get?_write hwrite]
  split
  · next heq => exact .inr ⟨file, hfile, heq.symm, rfl⟩
  · exact .inl rfl

theorem puts_of_write {written : Bool} (hfile : file ∈ files)
    (hon : (write folder file).on w = (.ok written, w')) : Puts folder files w.tree w'.tree := by
  have hstep := writing folder file w
  rw [hon] at hstep
  generalize w'.tree = t' at hstep ⊢
  cases hstep with
  | kept => exact .refl _
  | written _ _ hwrite => exact puts_write hfile hwrite

theorem puts_of_writeAll {some : List PlannedFile} {entries : List (Path × Bool)}
    (hsome : some ⊆ files) (hon : (writeAll folder some).on w = (.ok entries, w')) :
    Puts folder files w.tree w'.tree := by
  induction some generalizing w entries with
  | nil =>
    cases hon
    exact .refl _
  | cons file rest ih =>
    obtain ⟨hfile, hrest⟩ := List.cons_subset.mp hsome
    obtain ⟨_, w₁, hwrite, hon⟩ := on_bind_eq_ok.mp hon
    obtain ⟨_, w₂, hmore, hon⟩ := on_bind_eq_ok.mp hon
    cases hon
    exact (puts_of_write hfile hwrite).trans (ih hrest hmore)

theorem on_keeps
    (hlocate : w.tree.locate (file.path folder) = .ok (file.path folder).location) :
    (keeps folder file).on w =
      (.ok (!file.overwrite && (w.tree.get? (file.path folder).location).isSome), w) := by
  rw [keeps]
  cases file.overwrite with
  | true => rfl
  | false =>
    rw [if_neg Bool.false_ne_true, on_get_bind, FileTree.exists?_of_locate hlocate]
    rfl

theorem on_overwrite (hwrite : w.tree.write (file.path folder) file.content = (t', .ok ())) :
    ∃ w', (overwrite folder file).on w = (.ok (), w') ∧ w'.tree = t' := by
  rw [overwrite, on_get_bind, hwrite]
  exact ⟨_, rfl, rfl⟩

/-- A file that can be written is written or kept. -/
theorem write_of_writable (h : Writable w.tree folder file) :
    ∃ written w', (write folder file).on w = (.ok written, w') ∧
      (w'.tree = w.tree ∧ file.overwrite = false ∧
          (w.tree.get? (file.path folder).location).isSome ∨
        w.tree.write (file.path folder) file.content = (w'.tree, .ok ())) := by
  obtain ⟨hlocate, hentry⟩ := writable_iff.mp h
  rw [write, on_bind, on_keeps hlocate]
  dsimp only
  split
  · next hkept =>
    obtain ⟨hkeep, hthere⟩ : file.overwrite = false ∧ _ := by simpa using hkept
    exact ⟨false, _, rfl, .inl ⟨rfl, hkeep, hthere⟩⟩
  · next hnew =>
    have hfree : w.tree.get? (file.path folder).location ≠ some .folder ∧
        w.tree.contentFault? file.content = none := by
      rcases hentry with ⟨hkeep, hthere⟩ | hfree
      · rw [hkeep, hthere] at hnew
        exact absurd rfl hnew
      · exact hfree
    obtain ⟨t', hwrite⟩ : ∃ t', w.tree.write (file.path folder) file.content = (t', .ok ()) :=
      ⟨_, FileTree.write_eq_ok.mpr ⟨hlocate, hfree.1, hfree.2, rfl⟩⟩
    obtain ⟨w', hover, htree⟩ := on_overwrite hwrite
    rw [on_bind, hover]
    exact ⟨true, w', rfl, .inr (htree ▸ hwrite)⟩

/-- When all files can be written, then after a run there is a file of the run at the place of each, or
what was to be kept. -/
theorem writeAll_of_writable (h : ∀ f ∈ files, Writable w.tree folder f) :
    ∃ entries w', (writeAll folder files).on w = (.ok entries, w') ∧
      (∀ entry ∈ entries, ∃ f ∈ files, entry.1 = f.path folder) ∧
      ∀ f ∈ files, (f.overwrite = false ∧ (w'.tree.get? (f.path folder).location).isSome) ∨
        ∃ g ∈ files, (g.path folder).location = (f.path folder).location ∧
          w'.tree.get? (f.path folder).location = some (.file g.content.toUTF8) := by
  induction files generalizing w with
  | nil => exact ⟨[], w, rfl, nofun, nofun⟩
  | cons file rest ih =>
    obtain ⟨written, w₁, hon, hstep⟩ := write_of_writable (h file List.mem_cons_self)
    have hrest : ∀ f ∈ rest, Writable w₁.tree folder f := by
      intro f hf
      have hbefore := h f (List.mem_cons_of_mem _ hf)
      rcases hstep with ⟨hsame, _⟩ | hwrite
      · rwa [hsame]
      · exact hbefore.of_write hwrite
    obtain ⟨entries, w₂, hmore, hpaths, hends⟩ := ih hrest
    have hputs : Puts folder rest w₁.tree w₂.tree := puts_of_writeAll (List.Subset.refl rest) hmore
    refine ⟨(file.path folder, written) :: entries, w₂, ?_, ?_, ?_⟩
    · rw [writeAll, on_bind, hon]
      dsimp only
      rw [on_bind, hmore]
      rfl
    · intro entry hentry
      rcases List.mem_cons.mp hentry with rfl | hentry
      · exact ⟨file, List.mem_cons_self, rfl⟩
      · obtain ⟨f, hf, hpath⟩ := hpaths entry hentry
        exact ⟨f, List.mem_cons_of_mem _ hf, hpath⟩
    · intro f hf
      rcases List.mem_cons.mp hf with rfl | hf
      · rcases hstep with ⟨hsame, hkeep, hthere⟩ | hwrite
        · exact .inl ⟨hkeep, hputs.isSome (hsame ▸ hthere)⟩
        · -- What was written stays, unless another file has the same place.
          rcases hputs (f.path folder).location with hstays | ⟨g, hg, hplace, hput⟩
          · refine .inr ⟨f, List.mem_cons_self, rfl, ?_⟩
            rw [hstays, FileTree.get?_write hwrite, if_pos rfl]
          · exact .inr ⟨g, List.mem_cons_of_mem _ hg, hplace, hput⟩
      · rcases hends f hf with hkeep | ⟨g, hg, hend⟩
        · exact .inl hkeep
        · exact .inr ⟨g, List.mem_cons_of_mem _ hg, hend⟩

/-- The output folder can be made, and all files written there. -/
structure Deliverable (t : FileTree) (folder : Path) (files : List PlannedFile) : Prop where
  made : (t.ensureFolders folder).2 = .ok ()
  writable : ∀ f ∈ files, Writable (t.ensureFolders folder).1 folder f

theorem writeAll_delivers (h : ∀ f ∈ files, Writable w.tree folder f) :
    ∃ entries w', (writeAll folder files).on w = (.ok entries, w') ∧
      (∀ entry ∈ entries, ∃ f ∈ files, entry.1 = f.path folder) ∧
      ∀ f ∈ files, Delivered w.tree w'.tree folder files f := by
  obtain ⟨entries, w', hon, hpaths, hends⟩ := writeAll_of_writable h
  have hputs : Puts folder files w.tree w'.tree := puts_of_writeAll (List.Subset.refl files) hon
  have hplaces : Respects (FileTree.WritesAt fun _ => True) (writeAll folder files) :=
    respects_writeAll fun _ _ => trivial
  have hwrites := hplaces w
  rw [hon] at hwrites
  refine ⟨entries, w', hon, hpaths, fun f hf => ?_⟩
  have hlocate := (writable_iff.mp (h f hf)).1
  have hlater := hwrites.locate hlocate
  rcases hends f hf with ⟨hkeep, hthere⟩ | ⟨g, hg, hplace, hput⟩
  · rcases hputs (f.path folder).location with hsame | ⟨g, hg, hplace, hput⟩
    · obtain ⟨e, he⟩ := Option.isSome_iff_exists.mp hthere
      exact .kept e hkeep (FileTree.find_eq_ok.mpr ⟨hlocate, hsame ▸ he⟩)
        (FileTree.find_eq_ok.mpr ⟨hlater, he⟩)
    · exact .written g hg hplace (FileTree.find_eq_ok.mpr ⟨hlater, hput⟩)
  · exact .written g hg hplace (FileTree.find_eq_ok.mpr ⟨hlater, hput⟩)

/-- A run under given settings, whose plan goes through and can be written, writes or keeps all that
is planned. -/
theorem emit_delivers (hplan : Layout.ofDeclarations r options.packageName ds = .ok p)
    (h : Deliverable w.tree (outputFolder r options) p.files) :
    ∃ o w', (emit r ds options).on w = (.ok o, w') ∧ o.folder = outputFolder r options ∧
      (∀ path ∈ o.skipped, ∃ f ∈ p.files, path = f.path o.folder) ∧
      ∀ f ∈ p.files, Delivered (w.tree.ensureFolders o.folder).1 w'.tree o.folder p.files f := by
  obtain ⟨w₁, hon, htree⟩ := on_plan r options.packageName ds w
  rw [hplan] at hon
  change _ = (Except.ok p, w₁) at hon
  rw [← htree] at h ⊢
  let made : World := { w₁ with tree := (w₁.tree.ensureFolders (outputFolder r options)).1 }
  obtain ⟨entries, w₂, hwrite, hpaths, hends⟩ := writeAll_delivers (w := made) h.writable
  have hskipped : ∀ path ∈ (entries.filter (!·.2)).map (·.1),
      ∃ f ∈ p.files, path = f.path (outputFolder r options) := by
    intro path hpath
    obtain ⟨entry, hentry, rfl⟩ := List.mem_map.mp hpath
    exact hpaths entry (List.mem_of_mem_filter hentry)
  rw [emit, on_bind, hon]
  dsimp only
  rw [on_bind, on_createFolder, h.made]
  dsimp only [Except.mapError]
  rw [on_bind, hwrite]
  exact ⟨⟨_, _, _, _, _, _⟩, _, rfl, rfl, hskipped, hends⟩

/-- A run whose settings are read, whose plan goes through and can be written, writes or keeps all that
is planned. -/
theorem run_delivers {t : Target} (options : Options)
    (hsettings : settings? w.tree t options.configFile = .ok r)
    (hplan : Layout.ofDeclarations r options.packageName ds = .ok p)
    (h : Deliverable w.tree (outputFolder r options) p.files) :
    ∃ o w', (run t ds options).on w = (.ok o, w') ∧ o.folder = outputFolder r options ∧
      (∀ path ∈ o.skipped, ∃ f ∈ p.files, path = f.path o.folder) ∧
      ∀ f ∈ p.files, Delivered (w.tree.ensureFolders o.folder).1 w'.tree o.folder p.files f := by
  obtain ⟨w₁, hon, htree⟩ := on_registry t options.configFile w
  rw [hsettings] at hon
  rw [← htree] at h ⊢
  rw [run, on_bind, hon]
  exact emit_delivers hplan h

end Generation
end SchemaCompiler
