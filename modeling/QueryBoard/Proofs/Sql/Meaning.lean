import QueryBoard.Sql.Expr
import QueryBoard.Text.Case

/-!
# What expressions mean, and what is read from left to right

A meaning says what the parts of an expression come to on a row.  An expression is evaluated as it
was built, its operands first.  No operand is written between parentheses, so the text of an
expression can only be read in one way: comparisons and memberships one after the other, each with
all that stands before it in its condition, and the conditions joined by AND.  `Expr.reading` is what
this comes to, for any expression.  It is the value of the expression itself when that is `grouped`
in the same way.
-/

set_option autoImplicit false

namespace QueryBoard.Sql

/-- What the parts of an expression come to on a row. -/
structure Meaning (γ : Type) where
  column : Option String → String → γ
  literal : Literal → γ
  param : Value → γ
  compare : BinaryOp → γ → γ → γ
  both : γ → γ → γ
  /-- By the name in upper case, since functions are not told apart by case. -/
  call : String → List γ → γ
  member : Bool → γ → List γ → γ
  truth : Bool → γ
  star : γ
  window : γ → γ
  /-- How conjunctions are nested does not matter. -/
  both_assoc : ∀ a b c, both (both a b) c = both a (both b c)

namespace Expr

/-! ## As it was built -/

mutual

/-- The value of an expression, from those of its operands.  Nothing is in the empty list. -/
def eval {γ : Type} (m : Meaning γ) : Expr → γ
  | .column table name => m.column table name
  | .literal l => m.literal l
  | .param v => m.param v
  | .binary .and left right => m.both (eval m left) (eval m right)
  | .binary op left right => m.compare op (eval m left) (eval m right)
  | .call name args => m.call (Text.upper name) (evalList m args)
  | .member negated _ [] => m.truth negated
  | .member negated e (i :: is) => m.member negated (eval m e) (eval m i :: evalList m is)
  | .star => m.star
  | .over e => m.window (eval m e)

def evalList {γ : Type} (m : Meaning γ) : List Expr → List γ
  | [] => []
  | e :: rest => eval m e :: evalList m rest

end

end Expr

/-! ## From left to right -/

/-- What has been read: the conditions that are complete, and the one that may go on. -/
structure Progress (γ : Type) where
  done : Option γ
  current : γ

namespace Progress

variable {γ : Type} (m : Meaning γ)

/-- All conditions that have been read. -/
def close (p : Progress γ) : γ :=
  match p.done with
  | none => p.current
  | some earlier => m.both earlier p.current

/-- An operator and an operand are read: AND starts another condition, a comparison goes on with the
one that is there. -/
def push (op : BinaryOp) (p : Progress γ) (operand : γ) : Progress γ :=
  match op with
  | .and => ⟨some (p.close m), operand⟩
  | op => ⟨p.done, m.compare op p.current operand⟩

theorem push_and (p : Progress γ) : p.push m .and = Progress.mk (some (p.close m)) := rfl

def within (negated : Bool) (items : List γ) (p : Progress γ) : Progress γ :=
  ⟨p.done, m.member negated p.current items⟩

def window (p : Progress γ) : Progress γ := ⟨p.done, m.window p.current⟩

end Progress

namespace Expr

mutual

/-- What is read when an expression stands behind other text, where that text and an operand behind
it are read as `attach` of the operand. -/
def readBehind {γ : Type} (m : Meaning γ) (attach : γ → Progress γ) : Expr → Progress γ
  | .column table name => attach (m.column table name)
  | .literal l => attach (m.literal l)
  | .param v => attach (m.param v)
  | .binary op left right => readBehind m (Progress.push m op (readBehind m attach left)) right
  | .call name args => attach (m.call (Text.upper name) (readings m args))
  | .member negated _ [] => attach (m.truth negated)
  | .member negated e (i :: is) =>
    (readBehind m attach e).within m negated
      ((readBehind m (Progress.mk none) i).close m :: readings m is)
  | .star => attach m.star
  | .over e => (readBehind m attach e).window m

def readings {γ : Type} (m : Meaning γ) : List Expr → List γ
  | [] => []
  | e :: rest => (readBehind m (Progress.mk none) e).close m :: readings m rest

end

/-- What the text of an expression says, read from left to right. -/
def reading {γ : Type} (m : Meaning γ) (e : Expr) : γ :=
  (readBehind m (Progress.mk none) e).close m

theorem readings_eq {γ : Type} (m : Meaning γ) (es : List Expr) :
    readings m es = es.map (reading m) := by
  induction es with
  | nil => rfl
  | cons e es ih => rw [readings, List.map_cons, ih, reading]

/-! ## Expressions that are grouped as they are read -/

/-- Whether an expression is written as one operand. -/
def isOperand : Expr → Bool
  | .binary _ _ _ | .member _ _ (_ :: _) | .over _ => false
  | _ => true

/-- Whether an expression is written as one condition. -/
def isCondition : Expr → Bool
  | .binary .and _ _ => false
  | _ => true

mutual

/-- Whether an expression is grouped from the left, with AND last: what a comparison has on its right
is one operand, and what a comparison, a membership or a window has on its left is no conjunction.
What the empty list is asked about is not in the text. -/
def grouped : Expr → Bool
  | .column _ _ | .literal _ | .param _ | .star | .member _ _ [] => true
  | .binary .and left right => grouped left && grouped right
  | .binary _ left right => left.isCondition && grouped left && right.isOperand && grouped right
  | .call _ args => groupedList args
  | .member _ e (i :: is) => e.isCondition && grouped e && grouped i && groupedList is
  | .over e => e.isCondition && grouped e

def groupedList : List Expr → Bool
  | [] => true
  | e :: rest => grouped e && groupedList rest

end

section

variable {γ : Type} (m : Meaning γ)

/-- How an expression is read, behind other text, that is grouped as it is read. -/
structure ReadAsBuilt (e : Expr) : Prop where
  operand : e.isOperand = true → ∀ attach, e.readBehind m attach = attach (e.eval m)
  condition : e.isCondition = true → ∀ d, e.readBehind m (Progress.mk d) = ⟨d, e.eval m⟩
  closed : ∀ d, (e.readBehind m (Progress.mk d)).close m = Progress.close m ⟨d, e.eval m⟩

variable {m}

theorem ReadAsBuilt.of_operand {e : Expr}
    (read : ∀ attach, e.readBehind m attach = attach (e.eval m)) : ReadAsBuilt m e where
  operand := fun _ => read
  condition := fun _ d => read (Progress.mk d)
  closed := fun d => by rw [read]

theorem ReadAsBuilt.of_condition {e : Expr} (longer : e.isOperand = false)
    (read : ∀ d, e.readBehind m (Progress.mk d) = ⟨d, e.eval m⟩) : ReadAsBuilt m e where
  operand := fun operand => by rw [longer] at operand; cases operand
  condition := fun _ => read
  closed := fun d => by rw [read]

theorem readAsBuilt_and {left right : Expr} (first : ReadAsBuilt m left)
    (second : ReadAsBuilt m right) : ReadAsBuilt m (.binary .and left right) where
  operand := by simp [isOperand]
  condition := by simp [isCondition]
  closed := fun d => by
    rw [readBehind, Progress.push_and, second.closed, first.closed, eval]
    cases d with
    | none => rfl
    | some earlier => exact m.both_assoc earlier (left.eval m) (right.eval m)

theorem readAsBuilt_compare {op : BinaryOp} {left right : Expr} (comparison : op ≠ .and)
    (first : ReadAsBuilt m left) (single : left.isCondition = true) (second : ReadAsBuilt m right)
    (operand : right.isOperand = true) : ReadAsBuilt m (.binary op left right) := by
  refine .of_condition rfl fun d => ?_
  rw [readBehind, second.operand operand, first.condition single]
  cases op <;> first
    | exact absurd rfl comparison
    | rfl

mutual

theorem readAsBuilt : (e : Expr) → e.grouped = true → ReadAsBuilt m e
  | .column _ _, _ | .literal _, _ | .param _, _ | .star, _ | .member _ _ [], _ =>
      .of_operand fun attach => by rw [readBehind, eval]
  | .call name args, each => by
      refine .of_operand fun attach => ?_
      rw [grouped] at each
      rw [readBehind, eval, readings_eq_evalList args each]
  | .binary .and left right, both => by
      rw [grouped, Bool.and_eq_true] at both
      exact readAsBuilt_and (readAsBuilt left both.1) (readAsBuilt right both.2)
  | .binary .eq left right, both | .binary .ne left right, both | .binary .lt left right, both
  | .binary .gt left right, both | .binary .le left right, both | .binary .ge left right, both => by
      simp only [grouped, Bool.and_eq_true] at both
      obtain ⟨⟨⟨single, first⟩, operand⟩, second⟩ := both
      exact readAsBuilt_compare (by decide) (readAsBuilt left first) single
        (readAsBuilt right second) operand
  | .member negated e (i :: is), all => by
      simp only [grouped, Bool.and_eq_true] at all
      obtain ⟨⟨⟨single, subject⟩, first⟩, rest⟩ := all
      refine .of_condition rfl fun d => ?_
      rw [readBehind, eval, (readAsBuilt e subject).condition single,
        (readAsBuilt i first).closed, readings_eq_evalList is rest]
      rfl
  | .over e, both => by
      rw [grouped, Bool.and_eq_true] at both
      refine .of_condition rfl fun d => ?_
      rw [readBehind, eval, (readAsBuilt e both.2).condition both.1]
      rfl

theorem readings_eq_evalList : (es : List Expr) → groupedList es = true →
    readings m es = evalList m es
  | [], _ => rfl
  | e :: rest, both => by
      rw [groupedList, Bool.and_eq_true] at both
      rw [readings, evalList, (readAsBuilt e both.1).closed, readings_eq_evalList rest both.2]
      rfl

end

/-- An expression that is grouped as it is read says what it was built to say. -/
theorem reading_of_grouped {e : Expr} (built : e.grouped = true) : e.reading m = e.eval m :=
  (readAsBuilt e built).closed none

end

end Expr

end QueryBoard.Sql
