import SchemaCompiler.Proofs.Yaml.Runs
import SchemaCompiler.Yaml.Lexer

/-!
Faults in the cutting of a text into tokens. Only numbers and characters that are written by their codes can
be at fault before there are scalars to read.
-/
namespace SchemaCompiler.Yaml

/-- A number of a directive is too long, or an escape is the code of no character. -/
inductive OutOfRange : Fault → Prop
  | number (digits : Nat) (h : Decimal.mostDigits < digits) : OutOfRange (.intTooLong digits)
  | codePoint : OutOfRange .codePoint
  | codePointSize : OutOfRange .codePointSize

@[simp] theorem Lexer.step_tokens (l : Lexer) : l.step.tokens = l.tokens := by
  rw [step]
  split
  · rfl
  · split
    · rfl
    · split
      · rfl
      · rfl

@[simp] theorem Lexer.skip_tokens (l : Lexer) (n : Nat) : (l.skip n).tokens = l.tokens := by
  induction n generalizing l with
  | zero => rfl
  | succ n ih => rw [skip, ih, step_tokens]

namespace Lex

variable {α : Type}

def Whole (t : Token) : Prop := ∀ e, t ≠ .broken e

/-- Cutting goes on from tokens that are whole, and its faults are numbers and codes out of range. -/
abbrev Lexes (x : Lex α) : Prop :=
  Blames (fun l => ∀ t ∈ l.tokens, Whole t) OutOfRange (fun _ => True) x

/-- The same where a token is read. -/
abbrev LexesToken (x : Lex Token) : Prop :=
  Blames (fun l => ∀ t ∈ l.tokens, Whole t) OutOfRange Whole x

theorem lexes_get : Lexes get := Blames.get.bind fun l _ => .done l

theorem lexes_modify {f : Lexer → Lexer} (h : ∀ l, (f l).tokens = l.tokens) : Lexes (modify f) := by
  refine .modify fun l hl => ?_
  rw [h l]
  exact hl

theorem lexes_peek (n : Nat) : Lexes (peek n) :=
  lexes_get.seq fun _ => .done _

theorem lexes_advance (n : Nat) : Lexes (advance n) :=
  lexes_modify fun l => l.skip_tokens n

theorem lexes_takeWhile (accepts : Char → Bool) : Lexes (takeWhile accepts) :=
  lexes_get.seq fun _ => (lexes_advance _).seq fun _ => .done _

theorem lexes_skipSpaces : Lexes skipSpaces := (lexes_takeWhile _).discard

theorem lexes_lineBreak : Lexes lineBreak := by
  rw [lineBreak]
  refine (lexes_peek 0).seq fun c => .ite (fun _ => ?_) fun _ => .done _
  exact (lexes_advance 1).seq fun _ => .done _

theorem lexes_emit {t : Token} (h : Whole t) : Lexes (emit t) := by
  refine .modify fun l hl u hu => ?_
  rcases Array.mem_push.mp hu with hold | rfl
  · exact hl u hold
  · exact h

theorem lexes_allowKey (allowed : Bool) : Lexes (allowKey allowed) :=
  lexes_modify fun _ => rfl

theorem lexes_unwind (column : Int) : Lexes (unwind column) := by
  refine .modify fun l hl => ?_
  split
  · exact hl
  · intro t ht
    rcases Array.mem_append.mp ht with hold | hnew
    · exact hl t hold
    · rw [(Array.mem_replicate.mp hnew).2]
      nofun

theorem lexes_openBlock (column : Nat) : Lexes (openBlock column) := by
  rw [openBlock]
  refine Blames.get.bind fun l hl => .ite (fun _ => ?_) fun _ => .done _
  exact Blames.seq (.set hl) fun _ => .done _

theorem lexes_forgetKey : Lexes forgetKey := by
  rw [forgetKey]
  refine Blames.get.bind fun l hl => ?_
  split
  · exact .ite (fun _ => .malformed) fun _ => .set hl
  · exact .done _

theorem lexes_forgetStaleKeys : Lexes forgetStaleKeys := by
  rw [forgetStaleKeys]
  exact Blames.get.bind fun l hl => .check (.set hl)

theorem lexes_rememberKey : Lexes rememberKey := by
  rw [rememberKey]
  refine lexes_get.seq fun l => .ite (fun _ => ?_) fun _ => .done _
  exact lexes_forgetKey.seq fun _ => lexes_modify fun _ => rfl

theorem lexes_comment : Lexes (discard (takeWhile (!isBreakOrEnd ·))) :=
  (lexes_takeWhile _).discard

theorem lexes_skipToToken (room : Nat) : Lexes (skipToToken room) := by
  induction room with
  | zero => exact .done _
  | succ room ih =>
    rw [skipToToken]
    refine lexes_get.seq fun l => .also (lexes_advance 1) ?_
    refine lexes_skipSpaces.seq fun _ => (lexes_peek 0).seq fun c => .also lexes_comment ?_
    refine lexes_lineBreak.seq fun b => .ite (fun _ => .done _) fun _ => ?_
    exact lexes_get.seq fun l => .also (lexes_allowKey true) ih

theorem lexes_ignoredLine : Lexes ignoredLine := by
  rw [ignoredLine]
  refine lexes_skipSpaces.seq fun _ => (lexes_peek 0).seq fun c => .also lexes_comment ?_
  exact (lexes_peek 0).seq fun c => .ite (fun _ => lexes_lineBreak.discard) fun _ => .malformed

theorem lexes_hexDigits (n : Nat) : Lexes (hexDigits n) := by
  rw [hexDigits]
  refine lexes_get.seq fun l => .check ?_
  split
  · exact (lexes_advance n).seq fun _ => .done _
  · exact .malformed

theorem lexes_percentBytes (room : Nat) : Lexes (percentBytes room) := by
  induction room with
  | zero => exact .done _
  | succ room ih =>
    rw [percentBytes]
    refine (lexes_peek 0).seq fun c => .ite (fun _ => ?_) fun _ => .done _
    exact (lexes_advance 1).seq fun _ => (lexes_hexDigits 2).seq fun _ => ih.seq fun _ => .done _

theorem lexes_tagCharacters (room : Nat) : Lexes (tagCharacters room) := by
  induction room with
  | zero => exact .done _
  | succ room ih =>
    rw [tagCharacters]
    refine (lexes_takeWhile _).seq fun cs => (lexes_peek 0).seq fun c => ?_
    refine .ite (fun _ => ?_) fun _ => .done _
    refine lexes_get.seq fun l => (lexes_percentBytes l.size).seq fun bytes => ?_
    split
    · exact ih.seq fun _ => .done _
    · exact .malformed

theorem lexes_tagSuffix : Lexes tagSuffix := by
  rw [tagSuffix]
  exact lexes_get.seq fun l => (lexes_tagCharacters _).seq fun cs => .check (.done _)

theorem lexes_tagHandle : Lexes tagHandle := by
  rw [tagHandle]
  refine (lexes_peek 0).seq fun c => .check (lexes_get.seq fun l => .ite (fun _ => ?_) fun _ => ?_)
  · exact (lexes_advance 1).seq fun _ => .done _
  · exact .check ((lexes_advance _).seq fun _ => .done _)

theorem lexes_tag : Lexes tag := by
  rw [tag]
  refine lexes_get.seq fun l => ?_
  extract_lets c finish
  have hfinish : ∀ t, Lexes (do finish (← pure t)) := fun t =>
    (Blames.done t).seq fun _ => (lexes_peek 0).seq fun c =>
      .ite (fun _ => .done _) fun _ => .malformed
  refine .ite (fun _ => ?_) fun _ => .ite (fun _ => ?_) fun _ => .ite (fun _ => ?_) fun _ => ?_
  · refine (lexes_advance 2).seq fun _ => lexes_tagSuffix.seq fun suffix => ?_
    refine (lexes_peek 0).seq fun c => .check ((lexes_advance 1).seq fun _ => ?_)
    exact hfinish _
  · exact (lexes_advance 1).seq fun _ => hfinish _
  · refine lexes_tagHandle.seq fun handle => lexes_tagSuffix.seq fun suffix => ?_
    exact hfinish _
  · refine (lexes_advance 1).seq fun _ => lexes_tagSuffix.seq fun suffix => ?_
    exact hfinish _

theorem lexes_anchorName : Lexes anchorName := by
  rw [anchorName]
  refine (lexes_advance 1).seq fun _ => (lexes_takeWhile _).seq fun cs => .check ?_
  exact (lexes_peek 0).seq fun c => .ite (fun _ => .done _) fun _ => .malformed

theorem lexes_number : Lexes number := by
  rw [number]
  refine (lexes_takeWhile _).seq fun cs => ?_
  extract_lets value
  have hvalue : ∀ u, Lexes (value u) := by
    intro u
    dsimp only [value]
    split
    · exact .done _
    · exact .malformed
  refine .ite (fun hlong => ?_) fun _ => hvalue ()
  exact Blames.seq (.fault (.number _ hlong)) fun u => hvalue u

theorem lexes_directive : LexesToken directive := by
  rw [directive]
  refine (lexes_advance 1).seq fun _ => (lexes_takeWhile _).seq fun name => ?_
  refine (lexes_peek 0).seq fun c => .check ?_
  extract_lets finish
  have hfinish : ∀ t, Whole t → LexesToken (do finish (← pure t)) :=
    fun t ht => (Blames.pure ht).bind fun _ ht => lexes_ignoredLine.seq fun _ => .pure ht
  refine .ite (fun _ => ?_) fun _ => .ite (fun _ => ?_) fun _ => ?_
  · refine lexes_skipSpaces.seq fun _ => lexes_number.seq fun major => ?_
    refine (lexes_peek 0).seq fun c => .check ((lexes_advance 1).seq fun _ => ?_)
    refine lexes_number.seq fun _ => (lexes_peek 0).seq fun c => .check ?_
    exact hfinish _ (by nofun)
  · refine lexes_skipSpaces.seq fun _ => lexes_tagHandle.seq fun handle => ?_
    refine (lexes_peek 0).seq fun c => .check (lexes_skipSpaces.seq fun _ => ?_)
    refine lexes_tagSuffix.seq fun target => (lexes_peek 0).seq fun c => .check ?_
    exact hfinish _ (by nofun)
  · refine (lexes_takeWhile _).seq fun _ => ?_
    exact hfinish _ (by nofun)

theorem lexes_atSeparator : Lexes atSeparator :=
  lexes_get.seq fun _ => .done _

theorem lexes_incrementOf (c : Char) : Lexes (incrementOf c) := by
  rw [incrementOf]
  exact .check (.done _)

theorem lexes_blockHeader : Lexes blockHeader := by
  rw [blockHeader]
  refine (lexes_peek 0).seq fun c => ?_
  extract_lets finish
  have hfinish : ∀ header, Lexes (do finish (← pure header)) := fun header =>
    (Blames.done header).seq fun _ => (lexes_peek 0).seq fun c =>
      .ite (fun _ => .done _) fun _ => .malformed
  split
  · refine (lexes_advance 1).seq fun _ => (lexes_peek 0).seq fun c => ?_
    refine (lexes_incrementOf c).seq fun increment => ?_
    split
    · exact (lexes_advance 1).seq fun _ => hfinish _
    · exact hfinish _
  · refine (lexes_incrementOf c).seq fun increment => ?_
    split
    · refine (lexes_advance 1).seq fun _ => (lexes_peek 0).seq fun c => ?_
      split
      · exact (lexes_advance 1).seq fun _ => hfinish _
      · exact hfinish _
    · exact hfinish _

theorem lexes_leadingBreaks (room : Nat) : Lexes (leadingBreaks room) := by
  induction room with
  | zero => exact .done _
  | succ room ih =>
    rw [leadingBreaks]
    refine (lexes_takeWhile _).seq fun spaces => lexes_get.seq fun l => lexes_lineBreak.seq fun b => ?_
    exact .ite (fun _ => .done _) fun _ => ih.seq fun _ => .done _

theorem lexes_blockBreaks (indent room : Nat) : Lexes (blockBreaks indent room) := by
  induction room with
  | zero => exact .done _
  | succ room ih =>
    rw [blockBreaks]
    refine (lexes_get.seq fun l => lexes_advance _).seq fun _ => lexes_lineBreak.seq fun b => ?_
    exact .ite (fun _ => .done _) fun _ => ih.seq fun _ => .done _

theorem lexes_blockLines (folded : Bool) (chomping : Chomping) (indent : Nat) (breaks : List Char)
    (room : Nat) : Lexes (blockLines folded chomping indent breaks room) := by
  induction room generalizing breaks with
  | zero => exact .done _
  | succ room ih =>
    rw [blockLines]
    refine (lexes_peek 0).seq fun first => (lexes_takeWhile _).seq fun text => ?_
    refine lexes_lineBreak.seq fun lineEnd => lexes_get.seq fun l => ?_
    refine (lexes_blockBreaks indent _).seq fun next => lexes_get.seq fun l => ?_
    exact .ite (fun _ => (ih next).seq fun _ => .done _) fun _ => .done _

theorem lexes_blockScalar (folded : Bool) : Lexes (blockScalar folded) := by
  rw [blockScalar]
  refine (lexes_advance 1).seq fun _ => lexes_blockHeader.seq fun header => ?_
  refine lexes_ignoredLine.seq fun _ => lexes_get.seq fun l => ?_
  extract_lets least
  refine lexes_get.seq fun l => ?_
  extract_lets room lines
  have hlines : ∀ breaks, Lexes (do lines (← pure breaks)) := by
    intro breaks
    refine (Blames.done breaks).seq fun _ => lexes_get.seq fun l => .ite (fun _ => ?_) fun _ => .done _
    exact (lexes_blockLines _ _ _ _ _).seq fun _ => .done _
  split
  · exact (lexes_blockBreaks _ _).seq fun _ => hlines _
  · exact (lexes_leadingBreaks _).seq fun _ => hlines _

theorem lexes_quotedBreaks (room : Nat) : Lexes (quotedBreaks room) := by
  induction room with
  | zero => exact .done _
  | succ room ih =>
    rw [quotedBreaks]
    refine lexes_atSeparator.seq fun ends => .check ((lexes_takeWhile _).seq fun _ => ?_)
    exact lexes_lineBreak.seq fun b => .ite (fun _ => .done _) fun _ => ih.seq fun _ => .done _

theorem lexes_quotedEscape : Lexes quotedEscape := by
  rw [quotedEscape]
  refine (lexes_peek 0).seq fun c => ?_
  split
  · exact (lexes_advance 1).seq fun _ => .done _
  · refine (lexes_advance 1).seq fun _ => (lexes_hexDigits _).seq fun code => ?_
    refine .also (.fault .codePointSize) (.also (.fault .codePoint) (.done _))
  · refine .ite (fun _ => ?_) fun _ => .malformed
    exact lexes_lineBreak.seq fun _ => lexes_get.seq fun l => lexes_quotedBreaks _

theorem lexes_quotedRun (double : Bool) (room : Nat) : Lexes (quotedRun double room) := by
  induction room with
  | zero => exact .done _
  | succ room ih =>
    rw [quotedRun]
    refine (lexes_peek 0).seq fun c => .ite (fun _ => .done _) fun _ => ?_
    refine (lexes_peek 1).seq fun d => .ite (fun _ => ?_) fun _ => .ite (fun _ => .done _) fun _ => ?_
    · exact (lexes_advance 2).seq fun _ => ih.seq fun _ => .done _
    · refine .ite (fun _ => (lexes_advance 1).seq fun _ => ?_) fun _ => (lexes_advance 1).seq fun _ => ?_
      · exact lexes_quotedEscape.seq fun cs => ih.seq fun _ => .done _
      · exact ih.seq fun _ => .done _

theorem lexes_quotedBlanks : Lexes quotedBlanks := by
  rw [quotedBlanks]
  refine (lexes_takeWhile _).seq fun blanks => (lexes_peek 0).seq fun c => .check ?_
  refine lexes_lineBreak.seq fun b => .ite (fun _ => .done _) fun _ => ?_
  refine lexes_get.seq fun l => (lexes_quotedBreaks _).seq fun more => ?_
  exact .ite (fun _ => .done _) fun _ => .ite (fun _ => .done _) fun _ => .done _

theorem lexes_quotedRest (double : Bool) (room : Nat) : Lexes (quotedRest double room) := by
  induction room with
  | zero => exact .malformed
  | succ room ih =>
    rw [quotedRest]
    refine lexes_get.seq fun l => (lexes_quotedRun double _).seq fun cs => ?_
    refine (lexes_peek 0).seq fun c => .ite (fun _ => ?_) fun _ => ?_
    · exact (lexes_advance 1).seq fun _ => .done _
    · exact lexes_quotedBlanks.seq fun blanks => ih.seq fun _ => .done _

theorem lexes_quotedScalar (double : Bool) : Lexes (quotedScalar double) :=
  (lexes_advance 1).seq fun _ => lexes_get.seq fun _ => (lexes_quotedRest double _).seq fun _ => .done _

theorem lexes_plainBreaks (room : Nat) : Lexes (plainBreaks room) := by
  induction room with
  | zero => exact .done _
  | succ room ih =>
    rw [plainBreaks]
    refine lexes_atSeparator.seq fun ends => .ite (fun _ => .done _) fun _ => ?_
    refine lexes_skipSpaces.seq fun _ => lexes_lineBreak.seq fun b => ?_
    exact .ite (fun _ => .done _) fun _ => ih.seq fun _ => .done _

theorem lexes_plainBlanks : Lexes plainBlanks := by
  rw [plainBlanks]
  refine (lexes_takeWhile _).seq fun spaces => lexes_lineBreak.seq fun b => ?_
  refine .ite (fun _ => .done _) fun _ => (lexes_allowKey true).seq fun _ => lexes_get.seq fun l => ?_
  refine (lexes_plainBreaks _).seq fun more => ?_
  split
  · exact .done _
  · exact .ite (fun _ => .done _) fun _ => .ite (fun _ => .done _) fun _ => .done _

theorem lexes_plainRest (indent : Int) (blanks : List Char) (room : Nat) :
    Lexes (plainRest indent blanks room) := by
  induction room generalizing blanks with
  | zero => exact .done _
  | succ room ih =>
    rw [plainRest]
    refine lexes_get.seq fun l => .ite (fun _ => .done _) fun _ => ?_
    refine (lexes_allowKey false).seq fun _ => (lexes_advance _).seq fun _ => ?_
    refine lexes_plainBlanks.seq fun next => lexes_get.seq fun l => ?_
    exact .ite (fun _ => .done _) fun _ => (ih next).seq fun _ => .done _

theorem lexes_plainScalar : Lexes plainScalar :=
  lexes_get.seq fun _ => (lexes_plainRest _ _ _).seq fun _ => .done _

theorem lexes_leaveBlocks : Lexes leaveBlocks :=
  (lexes_unwind _).seq fun _ => lexes_forgetKey.seq fun _ => lexes_allowKey false

theorem lexes_flowStart {t : Token} (h : Whole t) : Lexes (flowStart t) := by
  refine lexes_rememberKey.seq fun _ => Blames.seq (lexes_modify ?_) fun _ => ?_
  · exact fun _ => rfl
  · exact (lexes_advance 1).seq fun _ => lexes_emit h

theorem lexes_flowEnd {t : Token} (h : Whole t) : Lexes (flowEnd t) := by
  rw [flowEnd]
  refine lexes_forgetKey.seq fun _ => lexes_get.seq fun l => .check ?_
  refine Blames.seq (lexes_modify ?_) fun _ => (lexes_advance 1).seq fun _ => lexes_emit h
  exact fun _ => rfl

theorem lexes_blockMark {started : Token} (h : Whole started) : Lexes (blockMark started) := by
  rw [blockMark]
  refine lexes_get.seq fun l => .ite (fun _ => .check ?_) fun _ => .done _
  refine (lexes_openBlock _).seq fun opened => .ite (fun _ => lexes_emit h) fun _ => .done _

theorem lexes_blockEntry : Lexes blockEntry := by
  refine (lexes_blockMark (by nofun)).seq fun _ => (lexes_allowKey true).seq fun _ => ?_
  exact lexes_forgetKey.seq fun _ => (lexes_advance 1).seq fun _ => lexes_emit nofun

theorem lexes_keyMark : Lexes keyMark := by
  refine (lexes_blockMark (by nofun)).seq fun _ => lexes_get.seq fun l => ?_
  refine (lexes_allowKey _).seq fun _ => ?_
  exact lexes_forgetKey.seq fun _ => (lexes_advance 1).seq fun _ => lexes_emit nofun

/-- A token may be put before others. -/
theorem lexes_insert {f : Lexer → Lexer} (i : Nat) (t : Token) (ht : Whole t)
    (h : ∀ l, (f l).tokens = l.tokens.insertIdxIfInBounds i t) : Lexes (modify f) := by
  refine .modify fun l hl u hu => ?_
  rw [h l, Array.insertIdxIfInBounds] at hu
  split at hu
  · rcases Array.mem_insertIdx.mp hu with rfl | hold
    · exact ht
    · exact hl u hold
  · exact hl u hu

theorem lexes_valueMark : Lexes valueMark := by
  rw [valueMark]
  refine Blames.get.bind fun l hl => ?_
  extract_lets finish
  have hfinish : ∀ u, Lexes (finish u) := fun _ => (lexes_advance 1).seq fun _ => lexes_emit nofun
  split
  · next k _ =>
    refine Blames.seq (.set hl) fun _ => ?_
    extract_lets marks
    have hmarks : ∀ starts, Lexes (marks starts) := by
      intro starts
      refine Blames.seq (lexes_insert k.token .key (by nofun) ?_) fun _ => .also ?_ (hfinish ())
      · exact fun _ => rfl
      · exact lexes_insert k.token .blockMappingStart (by nofun) fun _ => rfl
    refine .ite (fun _ => (lexes_openBlock _).seq fun starts => hmarks starts) fun _ => ?_
    exact (Blames.done _).seq fun starts => hmarks starts
  · refine (lexes_blockMark (by nofun)).seq fun _ => (lexes_allowKey _).seq fun _ => ?_
    exact lexes_forgetKey.seq fun u => hfinish u

theorem lexes_content {read : Lex Token} (h : LexesToken read) : Lexes (content read) := by
  rw [content]
  refine lexes_rememberKey.seq fun _ => (lexes_allowKey false).seq fun _ => ?_
  exact h.bind fun t ht => lexes_emit ht

theorem lexes_next : Lexes next := by
  rw [next]
  refine lexes_get.seq fun l => (lexes_skipToToken _).seq fun _ => lexes_forgetStaleKeys.seq fun _ => ?_
  refine lexes_get.seq fun l => (lexes_unwind _).seq fun _ => lexes_get.seq fun l => ?_
  have more : ∀ {x : Lex Unit}, Lexes x → Lexes (do x; return true) := fun h => h.seq fun _ => .done _
  refine .ite (fun _ => lexes_leaveBlocks.seq fun _ => .done _) fun _ => .ite (fun _ => ?_) fun _ => ?_
  · exact lexes_leaveBlocks.seq fun _ => lexes_directive.bind fun t ht => more (lexes_emit ht)
  refine lexes_atSeparator.seq fun ends => .ite (fun _ => ?_) fun _ => ?_
  · refine lexes_leaveBlocks.seq fun _ => (lexes_advance 3).seq fun _ => more (lexes_emit ?_)
    split
    · nofun
    · nofun
  refine .ite (fun _ => more (lexes_flowStart (by nofun))) fun _ => ?_
  refine .ite (fun _ => more (lexes_flowStart (by nofun))) fun _ => ?_
  refine .ite (fun _ => more (lexes_flowEnd (by nofun))) fun _ => ?_
  refine .ite (fun _ => more (lexes_flowEnd (by nofun))) fun _ => .ite (fun _ => ?_) fun _ => ?_
  · refine (lexes_allowKey true).seq fun _ => lexes_forgetKey.seq fun _ => ?_
    exact (lexes_advance 1).seq fun _ => more (lexes_emit (by nofun))
  refine .ite (fun _ => more lexes_blockEntry) fun _ => ?_
  refine .ite (fun _ => more lexes_keyMark) fun _ => ?_
  refine .ite (fun _ => more lexes_valueMark) fun _ => .ite (fun _ => ?_) fun _ => ?_
  · exact more (lexes_content (lexes_anchorName.seq fun _ => .pure (by nofun)))
  refine .ite (fun _ => ?_) fun _ => .ite (fun _ => ?_) fun _ => .ite (fun _ => ?_) fun _ => ?_
  · exact more (lexes_content (lexes_anchorName.seq fun _ => .pure (by nofun)))
  · exact more (lexes_content (lexes_tag.seq fun _ => .pure (by nofun)))
  · refine (lexes_allowKey true).seq fun _ => lexes_forgetKey.seq fun _ => ?_
    exact (lexes_blockScalar _).seq fun _ => more (lexes_emit (by nofun))
  refine .ite (fun _ => ?_) fun _ => .ite (fun _ => ?_) fun _ => ?_
  · exact more (lexes_content ((lexes_quotedScalar _).seq fun _ => .pure (by nofun)))
  · refine lexes_rememberKey.seq fun _ => (lexes_allowKey false).seq fun _ => ?_
    exact lexes_plainScalar.seq fun _ => more (lexes_emit (by nofun))
  · exact more .malformed

end Lex

theorem Lexer.run_fault {l : Lexer} {room : Nat} {f : Fault} (hl : ∀ t ∈ l.tokens, Lex.Whole t)
    (h : .broken (.fault f) ∈ l.run room) : OutOfRange f := by
  have hwhole : ∀ {l : Lexer} {f : Fault}, (∀ t ∈ l.tokens, Lex.Whole t) →
      .broken (.fault f) ∉ l.tokens.toList :=
    fun hl h => hl _ (Array.mem_toList_iff.mp h) _ rfl
  induction room generalizing l with
  | zero => exact absurd h (hwhole hl)
  | succ room ih =>
    obtain ⟨hok, hfault⟩ := Lex.lexes_next l hl
    rw [run] at h
    split at h
    · next e hend =>
      rcases List.mem_append.mp h with hsettled | hlast
      · exact absurd (List.take_subset _ _ hsettled) (hwhole hl)
      · obtain rfl := Token.broken.inj (List.mem_singleton.mp hlast)
        exact hfault f hend
    · next l' hend => exact ih (hok true l' hend).1 h
    · next l' hend => exact absurd h (hwhole (hok false l' hend).1)

/-- A fault that a token of a text tells of is a number or a code out of range. -/
theorem tokens_fault {text : String} {f : Fault} (h : .broken (.fault f) ∈ tokens text) :
    OutOfRange f := by
  rw [tokens] at h
  split at h
  · exact Lexer.run_fault (fun t ht => absurd ht (Array.not_mem_empty t)) h
  · cases List.mem_singleton.mp h

end SchemaCompiler.Yaml
