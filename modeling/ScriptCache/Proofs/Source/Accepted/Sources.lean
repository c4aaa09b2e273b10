import ScriptCache.Engine.Memory
import ScriptCache.Proofs.Source.Accepted.Completeness
import ScriptCache.Proofs.Source.Trivia
import ScriptCache.Scan

/-!
# Sources that parse

The sources that parse are those with accepted tokens, and a cache and a scan take no others.
Three short sources show that each exception of the grammar occurs.
-/

namespace ScriptCache.Source

open ScriptCache.Source.Parser (HaltsLast anyEnd)

theorem Lexer.haltsLast_of_lexes {c : Cursor} {tokens : List Token} (h : Lexes c tokens) :
    HaltsLast tokens := by
  induction h with
  | done =>
    intro before keyword after eq
    simp at eq
  | halt =>
    intro before keyword after eq _
    cases before with
    | nil => cases eq; rfl
    | cons => simp at eq
  | token _ _ _ onward _ ih =>
    intro before keyword after eq halts
    cases before with
    | nil =>
      cases eq
      rw [onward] at halts
      cases halts
    | cons first before =>
      cases eq
      exact ih before keyword after rfl halts

/-- The tokens of a source are accepted, and its braces are nested. -/
def AcceptedSource (source : List UInt8) : Prop :=
  ∃ stream, TokenStream.ofSource source = .ok stream ∧ Accepted anyEnd stream.tokens ∧
    Nested (braces stream.tokens)

theorem isOk_ofSource_iff {source : List UInt8} :
    (Statement.ofSource source).isOk ↔ AcceptedSource source := by
  cases lexed : TokenStream.ofSource source with
  | error e =>
    simp [Statement.ofSource, AcceptedSource, lexed, bind, Except.bind, Except.isOk, Except.toBool]
  | ok stream =>
    have last := Lexer.haltsLast_of_lexes (Lexer.lexes_of_readTokens lexed)
    have parses : Statement.ofSource source = Statement.ofTokens stream := by
      rw [Statement.ofSource, lexed]
      rfl
    rw [parses, isOk_ofTokens_iff last]
    constructor
    · exact fun accepted ↦ ⟨stream, lexed, accepted, accepted.braces_nested⟩
    · rintro ⟨stream', lexed', accepted, -⟩
      rw [lexed] at lexed'
      cases lexed'
      exact accepted

theorem acceptedSource_of_ofSource {source : List UInt8} {statements : List Statement}
    (h : Statement.ofSource source = .ok statements) : AcceptedSource source :=
  isOk_ofSource_iff.mp (by rw [h]; rfl)

theorem exists_of_bind {ε ε' α β : Type} {x : Except ε α} {f : ε → ε'} {g : α → Except ε' β} {b : β}
    (h : (x.mapError f >>= g) = .ok b) : ∃ a, x = .ok a ∧ g a = .ok b := by
  cases x with
  | error => cases h
  | ok a => exact ⟨a, rfl, h⟩

/-- The sources that parse are the accepted ones, and the content of a file that is cached or
scanned is one of them. -/
theorem parses_iff_accepted (d : Disk) (p : Path) (source : List UInt8) :
    ((Statement.ofSource source).isOk ↔ AcceptedSource source) ∧
      (∀ file, Memory.check d p = .ok file →
        ∃ content, d.read file.path = .ok content ∧ AcceptedSource content) ∧
      ∀ scanned, d.scanFile p = .ok scanned →
        ∃ content, d.read scanned.file.path = .ok content ∧ AcceptedSource content := by
  refine ⟨isOk_ofSource_iff, fun file checked ↦ ?_, fun scanned scan ↦ ?_⟩
  · obtain ⟨found, -, checked⟩ := exists_of_bind checked
    obtain ⟨content, read, checked⟩ := exists_of_bind checked
    obtain ⟨statements, parsed, checked⟩ := exists_of_bind checked
    cases checked
    exact ⟨content, read, acceptedSource_of_ofSource parsed⟩
  · obtain ⟨found, -, scan⟩ := exists_of_bind scan
    obtain ⟨content, read, scan⟩ := exists_of_bind scan
    obtain ⟨statements, parsed, scan⟩ := exists_of_bind scan
    cases scan
    exact ⟨content, read, acceptedSource_of_ofSource parsed⟩

/-- The tokens begin with a control keyword, its condition and a `:`. -/
def OpensBlock (tokens : List Token) (text : String) : Prop :=
  ∃ head colon rest, tokens = head ++ colon :: rest ∧ ControlHead head text ∧ colon.kind = .colon

namespace Parser.Sample

open Lexer

/-- A bracket of one kind closes one of another. -/
def crossed : List UInt8 := Ascii.ofString "<?php f(];"

def crossedTokens : List Token :=
  [⟨.name "f", 1, 6⟩, ⟨.opening .paren, 1, 7⟩, ⟨.closing .square, 1, 8⟩, ⟨.semicolon, 1, 9⟩]

theorem ofSource_crossed : TokenStream.ofSource crossed = .ok ⟨crossedTokens, 1⟩ := by
  have opened : skipInlineText (.ofSource crossed) = ⟨Ascii.ofString " f(];", 5, 1⟩ := by cbv
  have word : readToken ⟨Ascii.ofString "f(];", 6, 1⟩ 0x66 ⟨Ascii.ofString "(];", 7, 1⟩ =
      .ok (.name "f", ⟨Ascii.ofString "(];", 7, 1⟩) := by cbv
  have opener : readToken ⟨Ascii.ofString "(];", 7, 1⟩ 0x28 ⟨Ascii.ofString "];", 8, 1⟩ =
      .ok (.opening .paren, ⟨Ascii.ofString "];", 8, 1⟩) := by cbv
  have closer : readToken ⟨Ascii.ofString "];", 8, 1⟩ 0x5D ⟨Ascii.ofString ";", 9, 1⟩ =
      .ok (.closing .square, ⟨Ascii.ofString ";", 9, 1⟩) := by cbv
  have semicolon : readToken ⟨Ascii.ofString ";", 9, 1⟩ 0x3B ⟨[], 10, 1⟩ =
      .ok (.semicolon, ⟨[], 10, 1⟩) := by cbv
  rw [TokenStream.ofSource, opened,
    readTokens_token (by cbv) (by rfl) word (by cbv),
    readTokens_token (by cbv) (by rfl) opener rfl,
    readTokens_token (by cbv) (by rfl) closer rfl,
    readTokens_token (by cbv) (by rfl) semicolon rfl,
    readTokens_done (skipTrivia_nil rfl) rfl]
  rfl

theorem ofTokens_other {t : Token} {tokens : List Token}
    (read : readPlain 1 t tokens = readOther 1 t tokens) (notAttribute : isAttribute t = false)
    (notClosing : t.kind ≠ .closing .brace) (skipped : skipStatement 1 t tokens = .ok []) :
    Statement.ofTokens ⟨t :: tokens, 1⟩ = .ok [.other] := by
  have statement : readStatement 1 (t :: tokens) = .ok (.item (.statement .other) []) := by
    rw [readStatement, List.dropWhile_cons_of_neg (by simp [notAttribute])]
    simp only [if_neg notClosing]
    rw [read, readOther, skipped]
    rfl
  rw [Statement.ofTokens, readItems_cons, if_neg notClosing, statement]
  simp only [Except.bind]
  rw [readItems]
  rfl

theorem ofTokens_crossed : Statement.ofTokens ⟨crossedTokens, 1⟩ = .ok [.other] := by
  have word : opensControl "f" = false := by cbv
  refine ofTokens_other (by cbv) (by decide) (by decide) ?_
  simp [skipStatement_eq, condition?, word, skipExpression_cons]

theorem crossed_not_nested : ¬Nested crossedTokens := by
  intro nested
  have skipped : skipGroup 1 [.brace] (crossedTokens ++ []) = skipGroup 1 [.brace] [] :=
    skipGroup_nested nested .brace [] []
  rw [List.append_nil] at skipped
  simp [crossedTokens, skipGroup, fail] at skipped

/-- A bracket stands alone in the header of a type. -/
def stray : List UInt8 := Ascii.ofString "<?php class A)\x7b\x7d"

def strayTokens : List Token :=
  [⟨.name "class", 1, 6⟩, ⟨.name "A", 1, 12⟩, ⟨.closing .paren, 1, 13⟩, ⟨.opening .brace, 1, 14⟩,
    ⟨.closing .brace, 1, 15⟩]

theorem ofSource_stray : TokenStream.ofSource stray = .ok ⟨strayTokens, 1⟩ := by
  have opened : skipInlineText (.ofSource stray) = ⟨Ascii.ofString " class A)\x7b\x7d", 5, 1⟩ := by cbv
  have keyword : readToken ⟨Ascii.ofString "class A)\x7b\x7d", 6, 1⟩ 0x63
      ⟨Ascii.ofString "lass A)\x7b\x7d", 7, 1⟩ =
      .ok (.name "class", ⟨Ascii.ofString " A)\x7b\x7d", 11, 1⟩) := by cbv
  have name : readToken ⟨Ascii.ofString "A)\x7b\x7d", 12, 1⟩ 0x41 ⟨Ascii.ofString ")\x7b\x7d", 13, 1⟩ =
      .ok (.name "A", ⟨Ascii.ofString ")\x7b\x7d", 13, 1⟩) := by cbv
  have closer : readToken ⟨Ascii.ofString ")\x7b\x7d", 13, 1⟩ 0x29 ⟨Ascii.ofString "\x7b\x7d", 14, 1⟩ =
      .ok (.closing .paren, ⟨Ascii.ofString "\x7b\x7d", 14, 1⟩) := by cbv
  have opener : readToken ⟨Ascii.ofString "\x7b\x7d", 14, 1⟩ 0x7B ⟨Ascii.ofString "\x7d", 15, 1⟩ =
      .ok (.opening .brace, ⟨Ascii.ofString "\x7d", 15, 1⟩) := by cbv
  have last : readToken ⟨Ascii.ofString "\x7d", 15, 1⟩ 0x7D ⟨[], 16, 1⟩ =
      .ok (.closing .brace, ⟨[], 16, 1⟩) := by cbv
  rw [TokenStream.ofSource, opened,
    readTokens_token (by cbv) (by rfl) keyword (by cbv),
    readTokens_token (by cbv) (by rfl) name (by cbv),
    readTokens_token (by cbv) (by rfl) closer rfl,
    readTokens_token (by cbv) (by rfl) opener rfl,
    readTokens_token (by cbv) (by rfl) last rfl,
    readTokens_done (skipTrivia_nil rfl) rfl]
  rfl

theorem ofTokens_stray :
    Statement.ofTokens ⟨strayTokens, 1⟩ = .ok [.declaration .classType "A" 1] := by
  have declared : declared? strayTokens = some (.classType, strayTokens.drop 1) :=
    declared?_keyword rfl (by cbv) _
  have body : skipTypeBody 1 "A" (strayTokens.drop 2) = .ok [] := by
    simp [strayTokens, skipTypeBody_cons, skipGroup]
  have unqualified : "A".contains '\\' = false := by simp
  have read : readStatement 1 strayTokens =
      .ok (.item (.statement (.declaration .classType "A" 1)) []) := by
    rw [strayTokens, ← List.nil_append (_ :: _), readStatement_attributes (by simp) (by decide)
      (by decide), readPlain_declared rfl (by cbv) (by cbv) (fun _ ↦ rfl) declared]
    simp only [strayTokens, List.drop_succ_cons, List.drop_zero] at body ⊢
    rw [readType, unqualified]
    simp [body, Except.map]
  rw [Statement.ofTokens, strayTokens, readItems_cons, if_neg (by decide)]
  rw [strayTokens] at read
  simp only [read, Except.bind]
  rw [readItems]
  rfl

theorem stray_not_nested : ¬Nested strayTokens := by
  intro nested
  have skipped : skipGroup 1 [.brace] (strayTokens ++ []) = skipGroup 1 [.brace] [] :=
    skipGroup_nested nested .brace [] []
  rw [List.append_nil] at skipped
  simp [strayTokens, skipGroup, fail] at skipped

/-- The keyword of one block ends another. -/
def mixed : List UInt8 := Ascii.ofString "<?php if(x):endwhile;"

def mixedTokens : List Token :=
  [⟨.name "if", 1, 6⟩, ⟨.opening .paren, 1, 8⟩, ⟨.name "x", 1, 9⟩, ⟨.closing .paren, 1, 10⟩,
    ⟨.colon, 1, 11⟩, ⟨.name "endwhile", 1, 12⟩, ⟨.semicolon, 1, 20⟩]

theorem ofSource_mixed : TokenStream.ofSource mixed = .ok ⟨mixedTokens, 1⟩ := by
  have opened : skipInlineText (.ofSource mixed) = ⟨Ascii.ofString " if(x):endwhile;", 5, 1⟩ := by cbv
  have keyword : readToken ⟨Ascii.ofString "if(x):endwhile;", 6, 1⟩ 0x69
      ⟨Ascii.ofString "f(x):endwhile;", 7, 1⟩ =
      .ok (.name "if", ⟨Ascii.ofString "(x):endwhile;", 8, 1⟩) := by cbv
  have opener : readToken ⟨Ascii.ofString "(x):endwhile;", 8, 1⟩ 0x28
      ⟨Ascii.ofString "x):endwhile;", 9, 1⟩ =
      .ok (.opening .paren, ⟨Ascii.ofString "x):endwhile;", 9, 1⟩) := by cbv
  have word : readToken ⟨Ascii.ofString "x):endwhile;", 9, 1⟩ 0x78
      ⟨Ascii.ofString "):endwhile;", 10, 1⟩ =
      .ok (.name "x", ⟨Ascii.ofString "):endwhile;", 10, 1⟩) := by cbv
  have closer : readToken ⟨Ascii.ofString "):endwhile;", 10, 1⟩ 0x29
      ⟨Ascii.ofString ":endwhile;", 11, 1⟩ =
      .ok (.closing .paren, ⟨Ascii.ofString ":endwhile;", 11, 1⟩) := by cbv
  have colon : readToken ⟨Ascii.ofString ":endwhile;", 11, 1⟩ 0x3A
      ⟨Ascii.ofString "endwhile;", 12, 1⟩ =
      .ok (.colon, ⟨Ascii.ofString "endwhile;", 12, 1⟩) := by cbv
  have last : readToken ⟨Ascii.ofString "endwhile;", 12, 1⟩ 0x65
      ⟨Ascii.ofString "ndwhile;", 13, 1⟩ =
      .ok (.name "endwhile", ⟨Ascii.ofString ";", 20, 1⟩) := by cbv
  have semicolon : readToken ⟨Ascii.ofString ";", 20, 1⟩ 0x3B ⟨[], 21, 1⟩ =
      .ok (.semicolon, ⟨[], 21, 1⟩) := by cbv
  rw [TokenStream.ofSource, opened,
    readTokens_token (by cbv) (by rfl) keyword (by cbv),
    readTokens_token (by cbv) (by rfl) opener rfl,
    readTokens_token (by cbv) (by rfl) word (by cbv),
    readTokens_token (by cbv) (by rfl) closer rfl,
    readTokens_token (by cbv) (by rfl) colon rfl,
    readTokens_token (by cbv) (by rfl) last (by cbv),
    readTokens_token (by cbv) (by rfl) semicolon rfl,
    readTokens_done (skipTrivia_nil rfl) rfl]
  rfl

theorem ofTokens_mixed : Statement.ofTokens ⟨mixedTokens, 1⟩ = .ok [.other] := by
  have opens : opensControl "if" = true := by cbv
  have closes : closesControl "endwhile" = true := by cbv
  refine ofTokens_other (by cbv) (by decide) (by decide) ?_
  simp [skipStatement_eq, condition?, opens, skipGroup, skipColon, skipControl_cons, closes,
    Except.bind]

theorem opensBlock_mixed : OpensBlock mixedTokens "if" := by
  have condition : Group .paren
      [⟨.opening .paren, 1, 8⟩, ⟨.name "x", 1, 9⟩, ⟨.closing .paren, 1, 10⟩] :=
    @Group.mk .paren _ _ [⟨.name "x", 1, 9⟩] rfl (.token rfl .nil) rfl
  exact ⟨mixedTokens.take 4, _, _, rfl, .mk rfl (by cbv) condition, rfl⟩

theorem no_endif_mixed : ∀ t ∈ mixedTokens, ∀ text, t.kind = .name text → ¬isKeyword text "endif" := by
  have word : isKeyword "if" "endif" = false := by cbv
  have word' : isKeyword "x" "endif" = false := by cbv
  have word'' : isKeyword "endwhile" "endif" = false := by cbv
  simp [mixedTokens, word, word', word'']

end Parser.Sample

open ScriptCache.Source.Parser.Sample

theorem ofSource_crossed_ok : Statement.ofSource crossed = .ok [.other] := by
  rw [Statement.ofSource, ofSource_crossed]
  exact ofTokens_crossed

theorem ofSource_mixed_ok : Statement.ofSource mixed = .ok [.other] := by
  rw [Statement.ofSource, ofSource_mixed]
  exact ofTokens_mixed

theorem ofSource_stray_ok : Statement.ofSource stray = .ok [.declaration .classType "A" 1] := by
  rw [Statement.ofSource, ofSource_stray]
  exact ofTokens_stray

namespace Parser.Sample

def disk : Disk where
  root := .dir [("a.php", .file crossed (.of 10 0))] (.of 1 0)
  workingDir := []
  now := .of 20 0

theorem check_disk : Memory.check disk "/a.php" = .ok ⟨"/a.php", 10⟩ := by
  have file : disk.sourceFile "/a.php" = .ok ⟨"/a.php", 10⟩ := by cbv
  have content : disk.read "/a.php" = .ok crossed := by cbv
  simp [Memory.check, file, content, ofSource_crossed_ok, bind, Except.bind, Except.mapError, pure,
    Except.pure]

end Parser.Sample

theorem parses_iff_accepted_crossed :
    Memory.check Parser.Sample.disk "/a.php" = .ok ⟨"/a.php", 10⟩ ∧
      ∃ content, Parser.Sample.disk.read "/a.php" = .ok content ∧ AcceptedSource content :=
  ⟨Parser.Sample.check_disk, (parses_iff_accepted Parser.Sample.disk "/a.php" crossed).2.1 _
    Parser.Sample.check_disk⟩

/-- Accepted sources need not be nested, and a block with `:` may end at the keyword of another. -/
theorem crossed_and_mixed_accepted :
    (Statement.ofSource crossed = .ok [.other] ∧
      TokenStream.ofSource crossed = .ok ⟨crossedTokens, 1⟩ ∧ ¬Nested crossedTokens) ∧
    (Statement.ofSource stray = .ok [.declaration .classType "A" 1] ∧
      TokenStream.ofSource stray = .ok ⟨strayTokens, 1⟩ ∧ ¬Nested strayTokens) ∧
    Statement.ofSource mixed = .ok [.other] ∧
      TokenStream.ofSource mixed = .ok ⟨mixedTokens, 1⟩ ∧ OpensBlock mixedTokens "if" ∧
      ∀ t ∈ mixedTokens, ∀ text, t.kind = .name text → ¬isKeyword text "endif" :=
  ⟨⟨ofSource_crossed_ok, ofSource_crossed, crossed_not_nested⟩,
    ⟨ofSource_stray_ok, ofSource_stray, stray_not_nested⟩, ofSource_mixed_ok, ofSource_mixed,
    opensBlock_mixed, no_endif_mixed⟩

end ScriptCache.Source
