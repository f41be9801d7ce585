import SchemaCompiler.Proofs.Rendering.Literals

/-!
Members of enums, read back. An expression for an enum is scanned one character at a time. Outside of
quotes only the next quote counts, inside of them only a quote or a backslash, so that members may
look like any part of the expression around them.
-/
namespace SchemaCompiler

/-- Where a scan stands: the members that are over, and the characters of the one that it is in. -/
inductive MemberScan where
  | outside (members : List String)
  | inside (members : List String) (read : List Char)
  | escaped (members : List String) (read : List Char)

namespace MemberScan

variable {members : List String} {cs : List Char}

def step : MemberScan → Char → MemberScan
  | outside members, c => if c = '\x27' then inside members [] else outside members
  | inside members read, c =>
    if c = '\x27' then outside (members ++ [.ofList read])
    else if c = '\\' then escaped members read
    else inside members (read ++ [c])
  | escaped members read, c => inside members (read ++ [if c = 'n' then '\n' else c])

/-- The members that are over after a scan; there are none to tell when it ends inside of quotes. -/
def members? : MemberScan → Option (List String)
  | outside members => some members
  | _ => none

theorem scan_plain (h : '\x27' ∉ cs) : cs.foldl step (outside members) = outside members := by
  induction cs with
  | nil => rfl
  | cons c cs ih =>
    obtain ⟨hc, hcs⟩ := not_or.mp (mt List.mem_cons.mpr h)
    have hstep : step (outside members) c = outside members := if_neg (Ne.symm hc)
    rw [List.foldl_cons, hstep]
    exact ih hcs

/-- The escape of a character is read as the character. -/
theorem scan_escape (read : List Char) (c : Char) :
    (Literal.escape c).foldl step (inside members read) = inside members (read ++ [c]) := by
  fun_cases Literal.escape c with
  | case1 hslash =>
    rw [beq_iff_eq.mp hslash]
    rfl
  | case2 _ hquote =>
    rw [beq_iff_eq.mp hquote]
    rfl
  | case3 _ _ hline =>
    rw [beq_iff_eq.mp hline]
    rfl
  | case4 hslash hquote _ =>
    rw [beq_iff_eq] at hslash hquote
    simp [step, hslash, hquote]

theorem scan_escaped (read cs : List Char) :
    (cs.flatMap Literal.escape).foldl step (inside members read) = inside members (read ++ cs) := by
  induction cs generalizing read with
  | nil => simp
  | cons c cs ih =>
    rw [List.flatMap_cons, List.foldl_append, scan_escape, ih]
    simp

/-- A literal adds its text to the members, whatever the text looks like. -/
theorem scan_quote (s : String) :
    (Literal.quote s).toList.foldl step (outside members) = outside (members ++ [s]) := by
  have hopen : step (outside members) '\x27' = inside members [] := rfl
  have hclose (read : List Char) :
      step (inside members read) '\x27' = outside (members ++ [.ofList read]) := rfl
  rw [Literal.quote, String.toList_ofList, List.cons_append, List.foldl_cons, hopen,
    List.foldl_append, scan_escaped, List.foldl_cons, hclose]
  simp

/-- Literals with other text between them add their texts in order. -/
theorem scan_literals {sep behind : List Char} (hsep : '\x27' ∉ sep) (hbehind : '\x27' ∉ behind)
    (texts : List String) :
    (sep.intercalate (texts.map fun s => (Literal.quote s).toList ++ behind)).foldl step
      (outside members) = outside (members ++ texts) := by
  induction texts generalizing members with
  | nil => simp
  | cons s texts ih =>
    cases texts with
    | nil =>
      rw [List.map_singleton, List.intercalate_singleton, List.foldl_append, scan_quote,
        scan_plain hbehind]
    | cons next texts =>
      have hnext := @ih (members ++ [s])
      rw [List.map_cons] at hnext
      rw [List.map_cons, List.map_cons, List.intercalate_cons_cons, List.foldl_append,
        List.foldl_append, List.foldl_append, scan_quote, scan_plain hbehind, scan_plain hsep,
        hnext, List.append_assoc]
      rfl

end MemberScan

/-- The members that an expression for an enum lists. -/
def listedMembers (expression : String) : Option (List String) :=
  (expression.toList.foldl MemberScan.step (.outside [])).members?

namespace Target

variable {t : Target}

theorem exists_listed (ht : t ∈ Target.all) (members : List String) :
    ∃ e, t.enumExpression members = .ok e ∧ listedMembers e = some members := by
  obtain ⟨opening, behind, closing, hopening, hbehind, hclosing, henum⟩ := enum_around ht
  obtain ⟨e, he, htext⟩ := henum members
  refine ⟨e, he, ?_⟩
  have hsep : '\x27' ∉ ", ".toList := by decide
  rw [listedMembers, htext, List.foldl_append, List.foldl_append, MemberScan.scan_plain hopening,
    MemberScan.scan_literals hsep hbehind, MemberScan.scan_plain hclosing]
  rfl

/-- The expression for an enum lists its members in order and with repetitions, whatever texts they are,
and so no two enums have one expression. -/
theorem enum_members_listed (ht : t ∈ Target.all) :
    (∀ members, ∃ e, t.enumExpression members = .ok e ∧ listedMembers e = some members) ∧
      Function.Injective t.enumExpression := by
  refine ⟨exists_listed ht, ?_⟩
  intro members others hsame
  obtain ⟨e, he, hmembers⟩ := exists_listed ht members
  obtain ⟨e', he', hothers⟩ := exists_listed ht others
  rw [hsame, he'] at he
  cases he
  exact Option.some.inj (hmembers.symm.trans hothers)

theorem awkward_members_listed : ioTs ∈ Target.all ∧
    (∃ e, ioTs.enumExpression ["': null, '", "", "\\", "\\'\r\n", "", "\x7d)"] = .ok e ∧
      listedMembers e = some ["': null, '", "", "\\", "\\'\r\n", "", "\x7d)"]) ∧
    ioTs.enumExpression [] ≠ ioTs.enumExpression [""] := by
  obtain ⟨hlisted, hinjective⟩ := enum_members_listed (t := ioTs) List.mem_cons_self
  refine ⟨List.mem_cons_self, hlisted _, ?_⟩
  intro hsame
  cases hinjective hsame

end Target
end SchemaCompiler
