import AlLint.Source.Token

/-!
# Scanning

Scanning a text gives its tokens, its comments, and an issue for each piece that is damaged. A scan counts
lines as it goes over the pieces, and looks for line feeds only in the pieces that can hold some.
-/

namespace AlLint

/-- What a scan keeps about lines: how many characters are behind it, the number of the line that it is in, and
the offset at which that line starts. -/
structure LineCount where
  offset : Nat
  line : Nat
  lineStart : Nat
deriving DecidableEq, Repr

namespace LineCount

def start : LineCount := ⟨0, 1, 0⟩

def lastFeed? : List Char → Option Nat
  | [] => none
  | c :: cs =>
    match lastFeed? cs with
    | some i => some (i + 1)
    | none => if c = '\n' then some 0 else none

def column (s : LineCount) : Nat := s.offset - s.lineStart + 1

/-- The span of the characters that come next. After a line feed the end column is counted from the last one. -/
def span (s : LineCount) (chars : List Char) : Span :=
  match lastFeed? chars with
  | some i => ⟨s.line, s.column, s.line + chars.count '\n', chars.length - i⟩
  | none => ⟨s.line, s.column, s.line, s.column + chars.length⟩

/-- Goes over characters inside a line. -/
def forward (s : LineCount) (chars : List Char) : LineCount := { s with offset := s.offset + chars.length }

/-- Goes over characters that may hold line feeds. -/
def track (s : LineCount) (chars : List Char) : LineCount :=
  match lastFeed? chars with
  | some i => ⟨s.offset + chars.length, s.line + chars.count '\n', s.offset + i + 1⟩
  | none => s.forward chars

def past (s : LineCount) (piece : Piece) : LineCount :=
  match piece.kind with
  | .newline => ⟨s.offset + piece.chars.length, s.line + 1, s.offset + piece.chars.length⟩
  | .docComment | .lineComment | .blockComment | .openComment => s.track piece.chars
  | _ => s.forward piece.chars

end LineCount

/-- What a text holds. The end-of-file token is kept apart; comments that no token follows lead it. -/
structure Scan where
  tokens : List Token
  eof : Token
  comments : List Comment
  issues : List Issue

namespace Scan

def unpaired : List Char → List Char
  | [] => []
  | '\'' :: '\'' :: rest => '\'' :: unpaired rest
  | c :: rest => c :: unpaired rest

def commentKind? : PieceKind → Option CommentKind
  | .docComment => some .doc
  | .lineComment => some .line
  | .blockComment => some .block
  | _ => none

def tokenKind? : PieceKind → Option TokenKind
  | .number => some .number
  | .word => some .ident
  | .quotedName | .openName => some .quoted
  | .string | .openString => some .string
  | .operator => some .op
  | _ => none

/-- The value that a piece stands for: its text without quotes. -/
def valueOf (piece : Piece) : List Char :=
  match piece.kind with
  | .quotedName => piece.chars.tail.dropLast
  | .openName => piece.chars.tail
  | .string => unpaired piece.chars.tail.dropLast
  | .openString => unpaired piece.chars.tail
  | _ => piece.chars

def complaint? (piece : Piece) : Option Complaint :=
  match piece.kind with
  | .openComment => some .openComment
  | .openName => some .openQuotedName
  | .openString => some .openString
  | .stray => some (.unexpectedCharacter (piece.chars.headD ' '))
  | _ => none

/-- Adds a piece at its place to what is found after it. `pending` holds the comments since the last token; what comes
after the piece is found with the comments that wait then. -/
def put (piece : Piece) (span : Span) (start stop : Nat) (pending : List Comment)
    (after : List Comment → Scan) : Scan :=
  let text := String.ofList piece.chars
  let issues := ((complaint? piece).map (Issue.mk · span)).toList
  match commentKind? piece.kind, tokenKind? piece.kind with
  | some kind, _ =>
    let comment : Comment := ⟨kind, text, span⟩
    let rest := after (pending ++ [comment])
    { rest with comments := comment :: rest.comments, issues := issues ++ rest.issues }
  | none, some kind =>
    let token : Token := ⟨kind, text, String.ofList (valueOf piece), span, start, stop, pending⟩
    let rest := after []
    { rest with tokens := token :: rest.tokens, issues := issues ++ rest.issues }
  | none, none =>
    let rest := after pending
    { rest with issues := issues ++ rest.issues }

/-- What is found in pieces that are gone over with a line count. -/
def through (s : LineCount) (pending : List Comment) : List Piece → Scan
  | [] => ⟨[], ⟨.eof, "", "", s.span [], s.offset, s.offset, pending⟩, [], []⟩
  | piece :: pieces =>
    put piece (s.span piece.chars) s.offset (s.past piece).offset pending fun pending =>
      through (s.past piece) pending pieces

def ofText (text : String) : Scan := through .start [] (Piece.cut text.toList)

end Scan

end AlLint
