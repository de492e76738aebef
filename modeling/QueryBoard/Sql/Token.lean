import QueryBoard.Sql.Dialect
import QueryBoard.Sql.Expr
import QueryBoard.Text.Case

/-!
# SQL tokens

A statement is a sequence of tokens before it is text.  The same sequence gives the text in either
dialect and the values of its parameters, in the order of their placeholders.  Tokens carry their
own blanks: text is nothing but the texts of the tokens one after the other.
-/

set_option autoImplicit false

namespace QueryBoard.Sql

inductive Token where
  /-- Reserved words, written as they are. -/
  | keyword (words : String)
  | operator (op : BinaryOp)
  | comma
  | dot
  | star
  | lparen
  | rparen
  | space
  /-- A line break and two spaces for each level of depth. -/
  | newline (depth : Nat)
  | ident (name : String)
  /-- A function name, written in upper case. -/
  | function (name : String)
  | literal (l : Literal)
  | param (v : Value)
deriving DecidableEq, Repr

abbrev Tokens := List Token

namespace Token

/-- The text of a token; `position` is the number of its placeholder if it is a parameter. -/
def text (d : Dialect) (position : Nat) : Token → String
  | .keyword words => words
  | .operator op => op.text
  | .comma => ","
  | .dot => "."
  | .star => "*"
  | .lparen => "("
  | .rparen => ")"
  | .space => " "
  | .newline depth => "\n" ++ String.ofList (List.replicate (2 * depth) ' ')
  | .ident name => quoteIdentifier name
  | .function name => Text.upper name
  | .literal (.int n) => toString n.toInt
  | .literal (.str s) => quoteString s
  | .param _ => d.placeholder position

def value? : Token → Option Value
  | .param v => some v
  | _ => none

end Token

namespace Tokens

/-- The text of tokens, their placeholders numbered on from `position`. -/
def textFrom (d : Dialect) : Nat → Tokens → String
  | _, [] => ""
  | position, t :: rest =>
    t.text d position ++ textFrom d (if t.value?.isSome then position + 1 else position) rest

def text (d : Dialect) (ts : Tokens) : String := textFrom d 1 ts

/-- The values of the placeholders, in the order of the text. -/
def params (ts : Tokens) : List Value := ts.filterMap Token.value?

def separated (separator : Tokens) : List Tokens → Tokens
  | [] => []
  | [item] => item
  | item :: rest => item ++ separator ++ separated separator rest

def commaList (items : List Tokens) : Tokens := separated [.comma, .space] items

def parenList (items : List Tokens) : Tokens := .lparen :: commaList items ++ [.rparen]

/-- A keyword and what belongs to it, on a line of its own unless it starts the statement. -/
def clause (before : Tokens) (words : String) (content : Tokens) : Tokens :=
  before ++ (if before.isEmpty then [] else [.newline 0]) ++ .keyword words :: .space :: content

end Tokens

namespace Expr

mutual

/-- The tokens of an expression.  Operands are never put between parentheses.  Membership in the
empty list has no SQL form and is written as the truth value it has. -/
def tokens : Expr → Tokens
  | .column (some table) name => [.ident table, .dot, .ident name]
  | .column none name => [.ident name]
  | .literal l => [.literal l]
  | .param v => [.param v]
  | .binary op left right =>
    left.tokens ++ .space :: .operator op :: .space :: right.tokens
  | .call name args => .function name :: Tokens.parenList (tokensList args)
  | .member negated _ [] => [.keyword (if negated then "TRUE" else "FALSE")]
  | .member negated e (i :: is) =>
    e.tokens ++ .space :: (if negated then [.keyword "NOT", .space] else []) ++
      .keyword "IN" :: .space :: Tokens.parenList (tokens i :: tokensList is)
  | .star => [.star]
  | .over e => e.tokens ++ [.space, .keyword "OVER ()"]

def tokensList : List Expr → List Tokens
  | [] => []
  | e :: rest => tokens e :: tokensList rest

end

end Expr

end QueryBoard.Sql
