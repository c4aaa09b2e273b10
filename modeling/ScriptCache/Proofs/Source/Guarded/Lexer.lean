import Mathlib
import ScriptCache.Source.Token.Lexer

/-!
# The lexer with its guards

The lexer over a position in the source, in place of the bytes that are still ahead. Nothing is total
by construction here. Every read and every slice has bounds, the line has a largest value, a counter
can go below zero, and a loop that does not come forward is stopped: each of these is a `Fault`.
-/

namespace ScriptCache.Source

open Ascii (byte)
open Lexer (isNameStart isNameByte isBlank isIndent isHalt singleByte)

/-- What ends a run without a result. A run may come to the first of these only. -/
inductive Fault where
  | refused (e : ParseError)
  /-- A byte or a slice outside of the source is asked for. -/
  | outside
  /-- The line does not fit in its counter. -/
  | overflow
  /-- A loop or a call goes on from where it began, or from beyond the end. -/
  | stuck
  /-- A counter goes below zero, or nothing is left to be popped. -/
  | underflow
  /-- Modifiers that lead to a type have no keyword of a type behind them. -/
  | astray
  deriving DecidableEq, Repr

abbrev Guarded : Type → Type := Except Fault

namespace Guarded

variable {σ α : Type}

/-- What is reached from `pos` is gone on with, if it lies further on and not beyond the end. -/
def onward (size pos : Nat) (next : σ → Nat) (x : Guarded σ)
    (go : (s : σ) → pos < next s ∧ next s ≤ size → Guarded α) : Guarded α :=
  match x with
  | .error f => .error f
  | .ok s => if further : pos < next s ∧ next s ≤ size then go s further else .error .stuck

/-- What comes of one turn of a loop. -/
inductive Turn (σ α : Type) where
  | again (s : σ)
  | leave (a : α)

def loop (size : Nat) (pos : σ → Nat) (turn : σ → Guarded (Turn σ α)) (s : σ) : Guarded α :=
  match turn s with
  | .error f => .error f
  | .ok (.leave a) => .ok a
  | .ok (.again s') =>
    if _further : pos s < pos s' ∧ pos s' ≤ size then loop size pos turn s' else .error .stuck
termination_by size - pos s

/-- A position, and the line that was counted up to it. -/
structure Spot where
  pos : Nat
  line : Nat
  deriving DecidableEq, Repr

variable (source : List UInt8)

/-! ## Reading bytes -/

/-- Beyond the end, zeros are seen. -/
def peekAt (s : Spot) (n : Nat) : UInt8 := source[s.pos + n]?.getD 0

def peek (s : Spot) : UInt8 := peekAt source s 0

def bump (s : Spot) : Guarded (UInt8 × Spot) :=
  match source[s.pos]? with
  | none => .error .outside
  | some b =>
    if b ≠ Cursor.newline then .ok (b, ⟨s.pos + 1, s.line⟩)
    else if s.line + 1 < UInt32.size then .ok (b, ⟨s.pos + 1, s.line + 1⟩)
    else .error .overflow

def advance (s : Spot) : Guarded Spot := (bump source s).map (·.2)

def advanceBy : Nat → Spot → Guarded Spot
  | 0, s => .ok s
  | n + 1, s => (advance source s).bind (advanceBy n)

def slice (start stop : Nat) : Guarded (List UInt8) :=
  if start ≤ stop ∧ stop ≤ source.length then .ok ((source.take stop).drop start)
  else .error .outside

def startsWith (text : List UInt8) (s : Spot) : Guarded Bool :=
  (slice source s.pos source.length).map (text.isPrefixOf ·)

def startsWithCaseless (text : List UInt8) (s : Spot) : Guarded Bool :=
  if source.length < s.pos then .error .underflow
  else if source.length - s.pos < text.length then .ok false
  else (slice source s.pos (s.pos + text.length)).map (Ascii.startsWithCaseless text)

/-- A loop over positions in the source. -/
abbrev scan (turn : Spot → Guarded (Turn Spot α)) (s : Spot) : Guarded α :=
  loop source.length Spot.pos turn s

/-- Skips bytes as long as the byte ahead satisfies `p`. -/
def skipWhile (p : UInt8 → Bool) (s : Spot) : Guarded Spot :=
  scan source (fun s ↦
    if p (peek source s) then (advance source s).map .again else .ok (.leave s)) s

/-! ## Text, blanks and comments -/

def skipInlineText (s : Spot) : Guarded Spot :=
  scan source (fun s ↦
    if s.pos < source.length then do
      let tag ← startsWith source (Ascii.ofString "<?") s
      if tag then
        let long ← startsWithCaseless source (Ascii.ofString "<?php") s
        if long then (advanceBy source 5 s).map .leave
        else
          let echo ← startsWith source (Ascii.ofString "<?=") s
          (advanceBy source (if echo then 3 else 2) s).map .leave
      else (advance source s).map .again
    else .ok (.leave s)) s

def skipLineComment (s : Spot) : Guarded Spot :=
  scan source (fun s ↦
    if s.pos < source.length then
      if peek source s = Cursor.newline then .ok (.leave s)
      else do
        let tag ← startsWith source (Ascii.ofString "?>") s
        if tag then .ok (.leave s) else (advance source s).map .again
    else .ok (.leave s)) s

/-- Skips to behind the end of a block comment that began on line `line`. -/
def skipBlockComment (line : Nat) (s : Spot) : Guarded Spot :=
  scan source (fun s ↦
    if source.length ≤ s.pos then .error (.refused ⟨line, .unterminatedComment⟩)
    else do
      let closed ← startsWith source (Ascii.ofString "*/") s
      if closed then (advanceBy source 2 s).map .leave else (advance source s).map .again) s

def skipTrivia (s : Spot) : Guarded Spot :=
  scan source (fun s ↦
    let b := peek source s
    let next := peekAt source s 1
    if isBlank b then (advance source s).map .again
    else if b = byte '#' ∧ next ≠ byte '[' then (skipLineComment source s).map .again
    else if b = byte '/' ∧ next = byte '/' then (skipLineComment source s).map .again
    else if b = byte '/' ∧ next = byte '*' then do
      let inside ← advanceBy source 2 s
      (skipBlockComment source s.line inside).map .again
    else .ok (.leave s)) s

/-! ## Strings and groups -/

def singleQuoted (line : Nat) (s : Spot) : Guarded Spot :=
  scan source (fun s ↦
    if source.length ≤ s.pos then .error (.refused ⟨line, .unterminatedString⟩)
    else do
      let (b, s) ← bump source s
      if b = Ascii.backslash ∧ s.pos < source.length then (advance source s).map .again
      else if b = Ascii.apostrophe then .ok (.leave s)
      else .ok (.again s)) s

/-- Steps into an interpolation: over its brace, and a dollar sign in front of that. -/
def enter (s : Spot) : Guarded Spot :=
  if peek source s = byte '$' then advanceBy source 2 s else advance source s

mutual

def interpolated (quote : UInt8) (line : Nat) (s : Spot) : Guarded Spot :=
  if source.length ≤ s.pos then .error (.refused ⟨line, .unterminatedString⟩)
  else if (peek source s = byte '{' ∧ peekAt source s 1 = byte '$') ∨
      (peek source s = byte '$' ∧ peekAt source s 1 = byte '{') then
    onward source.length s.pos Spot.pos (enter source s) fun inside _ ↦
      onward source.length s.pos Spot.pos (skipGroup '{' '}' line 1 inside) fun behind _ ↦
        interpolated quote line behind
  else
    match bump source s with
    | .error f => .error f
    | .ok (b, next) =>
      if b = Ascii.backslash ∧ next.pos < source.length then
        onward source.length s.pos Spot.pos (advance source next) fun behind _ ↦
          interpolated quote line behind
      else if b = quote then .ok next
      else
        onward source.length s.pos Spot.pos (.ok next) fun behind _ ↦
          interpolated quote line behind
termination_by source.length - s.pos

/-- `depth` counts the open brackets. -/
def skipGroup (opener closer : Char) (line depth : Nat) (s : Spot) : Guarded Spot :=
  if source.length ≤ s.pos then .error (.refused ⟨line, .unclosedGroup opener⟩)
  else
    match bump source s with
    | .error f => .error f
    | .ok (b, next) =>
      onward source.length s.pos Spot.pos (.ok next) fun next _ ↦
        if b = Ascii.apostrophe then
          onward source.length s.pos Spot.pos (singleQuoted source next.line next) fun behind _ ↦
            skipGroup opener closer line depth behind
        else if b = Ascii.quote then
          onward source.length s.pos Spot.pos (interpolated b next.line next) fun behind _ ↦
            skipGroup opener closer line depth behind
        else if b = byte opener then skipGroup opener closer line (depth + 1) next
        else if b = byte closer then
          match depth with
          | 0 => .error .underflow
          | 1 => .ok next
          | depth + 2 => skipGroup opener closer line (depth + 1) next
        else skipGroup opener closer line depth next
termination_by source.length - s.pos

end

/-! ## Heredocs -/

def skipHeredocBody (label : List UInt8) (line : Nat) (s : Spot) : Guarded Spot :=
  scan source (fun s ↦ do
    let lineEnd ← scan source (fun s ↦
      if s.pos < source.length ∧ peek source s ≠ Cursor.newline then
        (advance source s).map .again
      else .ok (.leave s)) s
    if source.length ≤ lineEnd.pos then .error (.refused ⟨line, .unterminatedHeredoc⟩)
    else
      let next ← advance source lineEnd
      let text ← skipWhile source isIndent next
      let found ← startsWith source label text
      if found && !isNameByte (peekAt source text label.length) then
        (advanceBy source label.length text).map .leave
      else .ok (.again text)) s

def skipLabelled (line : Nat) (quote : Option UInt8) (s : Spot) : Guarded Spot := do
  let last ← skipWhile source isNameByte s
  let label ← slice source s.pos last.pos
  if label.isEmpty then .error (.refused ⟨line, .missingHeredocLabel⟩)
  else
    match quote with
    | none => skipHeredocBody source label line last
    | some q =>
      if peek source last ≠ q then .error (.refused ⟨line, .malformedHeredocLabel⟩)
      else
        let body ← advance source last
        skipHeredocBody source label line body

def skipHeredoc (line : Nat) (s : Spot) : Guarded Spot := do
  let inside ← advanceBy source 3 s
  let mark ← skipWhile source isIndent inside
  let b := peek source mark
  if b = Ascii.quote ∨ b = Ascii.apostrophe then
    let label ← advance source mark
    skipLabelled source line (some b) label
  else skipLabelled source line none mark

/-! ## Tokens -/

/-- Segments of a name, with a backslash in front of each but the first. -/
def skipSegments (s : Spot) : Guarded Spot :=
  scan source (fun s ↦ do
    let behind ← skipWhile source isNameByte s
    if peek source behind = Ascii.backslash ∧ isNameStart (peekAt source behind 1) then
      (advance source behind).map .again
    else .ok (.leave behind)) s

def readName (s : Spot) : Guarded (TokenKind × Spot) := do
  let first ← if peek source s = Ascii.backslash then advance source s else .ok s
  let stop ← skipSegments source first
  let text ← slice source s.pos stop.pos
  .ok (.name (Utf8.decodeLossy text), stop)

/-- Reads the token that the byte ahead alone, or with the one behind it, tells apart. -/
def readSigned (s : Spot) : Guarded (TokenKind × Spot) := do
  let b := peek source s
  if isNameStart b ∨ (b = Ascii.backslash ∧ isNameStart (peekAt source s 1)) then readName source s
  else if b = byte '$' then
    let next ← advance source s
    (skipWhile source isNameByte next).map (.varName, ·)
  else if b = Ascii.apostrophe then
    let inside ← advance source s
    (singleQuoted source s.line inside).map (.literal, ·)
  else if b = Ascii.quote ∨ b = Ascii.backtick then
    let inside ← advance source s
    (interpolated source b s.line inside).map (.literal, ·)
  else if Ascii.isDigit b then
    (skipWhile source (fun d ↦ isNameByte d || d == byte '.') s).map (.literal, ·)
  else if b = byte '.' ∧ Ascii.isDigit (peekAt source s 1) then
    let next ← advance source s
    (skipWhile source isNameByte next).map (.literal, ·)
  else if b = byte ':' ∧ peekAt source s 1 = byte ':' then
    (advanceBy source 2 s).map (.doubleColon, ·)
  else (advance source s).map (singleByte b, ·)

def readToken (s : Spot) : Guarded (TokenKind × Spot) := do
  let tag ← startsWith source (Ascii.ofString "?>") s
  if tag then
    let inside ← advanceBy source 2 s
    (skipInlineText source inside).map (.semicolon, ·)
  else
    let group ← startsWith source (Ascii.ofString "#[") s
    if group then
      let inside ← advanceBy source 2 s
      (skipGroup source '[' ']' s.line 1 inside).map (.attributeGroup, ·)
    else
      let heredoc ← startsWith source (Ascii.ofString "<<<") s
      if heredoc then (skipHeredoc source s.line s).map (.literal, ·)
      else readSigned source s

/-- Keeps the token that was read from `start` on. Reading it has to take a byte. -/
def keep (tokens : List Token) (start : Spot) (read : Guarded (TokenKind × Spot)) :
    Guarded (Turn (Spot × List Token) TokenStream) :=
  onward source.length start.pos (fun read ↦ read.2.pos) read fun read _ ↦
    let tokens := tokens ++ [⟨read.1, start.line, start.pos⟩]
    if isHalt read.1 then .ok (.leave ⟨tokens, read.2.line⟩) else .ok (.again (read.2, tokens))

/-- One turn of the main loop. -/
def readNext : Spot × List Token → Guarded (Turn (Spot × List Token) TokenStream)
  | (s, tokens) => do
    let start ← skipTrivia source s
    if source.length ≤ start.pos then .ok (.leave ⟨tokens, start.line⟩)
    else keep source tokens start (readToken source start)

def readTokens : Guarded TokenStream := do
  let start ← skipInlineText source ⟨0, 1⟩
  loop source.length (fun state : Spot × List Token ↦ state.1.pos) (readNext source) (start, [])

end Guarded

end ScriptCache.Source
