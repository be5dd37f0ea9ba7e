import ComponentCompiler.Style.Scope

namespace ComponentCompiler.Style

inductive Piece
  | char (c : Char)
  | escape (c : Char)
  | string (quote : Char) (text : List Char)
  | comment (text : List Char)
deriving DecidableEq

def Piece.chars : Piece → List Char
  | .char c => [c]
  | .escape c => ['\\', c]
  | .string quote text => quote :: (text ++ [quote])
  | .comment text => '/' :: '*' :: (text ++ ['*', '/'])

def pieceChars (pieces : List Piece) : List Char :=
  pieces.flatMap Piece.chars

def isStringText (quote : Char) : List Char → Bool
  | [] => true
  | '\\' :: _ :: cs => isStringText quote cs
  | c :: cs => c ≠ quote && c ≠ '\\' && isStringText quote cs

def isCommentText : List Char → Bool
  | [] => true
  | '*' :: '/' :: _ => false
  | _ :: cs => isCommentText cs

/-- Whether a piece is read as what it is; `escapes` says that backslashes count outside of
strings. -/
def Piece.isClosed (escapes : Bool) : Piece → Bool
  | .char c => !isQuote c && !(escapes && c = '\\')
  | .escape _ => escapes
  | .string quote text => isQuote quote && isStringText quote text
  | .comment text => isCommentText text

def areClosed (escapes : Bool) : List Piece → Bool
  | [] => true
  | p :: ps => p.isClosed escapes && !(p = .char '/' && ps.head? = some (.char '*')) &&
      areClosed escapes ps

theorem pieceChars_cons (p : Piece) (ps : List Piece) :
    pieceChars (p :: ps) = p.chars ++ pieceChars ps :=
  rfl

theorem closed_cons {escapes : Bool} {p : Piece} {ps : List Piece}
    (closed : areClosed escapes (p :: ps) = true) :
    p.isClosed escapes = true ∧ (p = .char '/' → ps.head? ≠ some (.char '*')) ∧
      areClosed escapes ps = true := by
  simpa [areClosed, and_assoc, Decidable.imp_iff_not_or] using closed

end ComponentCompiler.Style
