import ClusterBlueprint.Expression.Operator
import ClusterBlueprint.Number.Decimal

/-!
The tokens of the expression language.

A quoted template is not one token: its quotes, its stretches of literal text and the braces of its
interpolations are tokens of their own, so a call inside a template can be found and replaced in the
token list.  `Token.join` writes tokens so that they can be told apart again.
-/

namespace ClusterBlueprint

inductive Token where
  /-- an identifier, a keyword or a function name -/
  | ident (name : String)
  | number (value : Number)
  /-- the quote that opens a template -/
  | openQuote
  /-- the quote that closes a template -/
  | closeQuote
  /-- literal text of a template, without escapes -/
  | literal (text : String)
  /-- the dollar and brace that open an interpolation -/
  | openInterpolation
  /-- the brace that closes an interpolation -/
  | closeInterpolation
  | openParen | closeParen
  | openBracket | closeBracket
  | openBrace | closeBrace
  | comma | dot | colon | question | assign | bang
  | operator (op : BinaryOperator)
deriving DecidableEq

namespace Token

/-- One character of literal text as it is written in a template.  A dollar is doubled where the
next character would make it open an interpolation. -/
def escapeLiteral : List Char → List Char
  | [] => []
  | '\\' :: rest => '\\' :: '\\' :: escapeLiteral rest
  | '"' :: rest => '\\' :: '"' :: escapeLiteral rest
  | '\n' :: rest => '\\' :: 'n' :: escapeLiteral rest
  | '\t' :: rest => '\\' :: 't' :: escapeLiteral rest
  | '\r' :: rest => '\\' :: 'r' :: escapeLiteral rest
  | '$' :: '{' :: rest => '$' :: '$' :: '{' :: escapeLiteral rest
  | c :: rest => c :: escapeLiteral rest

/-- Literal text of a template as it is written between the quotes. -/
def literalText (text : String) : String := String.ofList (escapeLiteral text.toList)

def text : Token → String
  | ident name => name
  | number value => value.source
  | openQuote | closeQuote => "\""
  | literal text => literalText text
  | openInterpolation => "$\x7b"
  | closeInterpolation | closeBrace => "\x7d"
  | openParen => "("
  | closeParen => ")"
  | openBracket => "["
  | closeBracket => "]"
  | openBrace => "\x7b"
  | comma => ","
  | dot => "."
  | colon => ":"
  | question => "?"
  | assign => "="
  | bang => "!"
  | operator op => op.text

/-- Whether nothing may stand between two tokens, because a template's text runs up to one of
them. -/
def glued : Token → Token → Bool
  | openQuote, _ | literal _, _ | closeInterpolation, _ => true
  | _, closeQuote | _, literal _ | _, openInterpolation => true
  | _, _ => false

/-- The tokens after a token, a space between those that are not glued. -/
def joinAfter : Token → List Token → String
  | _, [] => ""
  | before, token :: rest =>
    (if glued before token then "" else " ") ++ token.text ++ joinAfter token rest

def join : List Token → String
  | [] => ""
  | token :: rest => token.text ++ joinAfter token rest

end Token

end ClusterBlueprint
