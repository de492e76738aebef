/-!
# Quoted text

A text between quotes, a quote inside it being written twice.  Reading accepts exactly what
writing produces, so every text has one quoted form.
-/

set_option autoImplicit false

namespace QueryBoard.Text.Quoted

def body (q : Char) : List Char → List Char
  | [] => []
  | c :: rest => if c = q then q :: q :: body q rest else c :: body q rest

def write (q : Char) (s : String) : String := String.ofList (q :: (body q s.toList ++ [q]))

/-- Reads the characters between quotes up to the quote that ends them, and returns what stands
after it.  There is no result when the text ends first. -/
def readBody (q : Char) : List Char → Option (List Char × List Char)
  | [] => none
  | [c] => if c = q then some ([], []) else none
  | c :: d :: rest =>
    if c = q then
      if d = q then (readBody q rest).map fun p => (q :: p.1, p.2) else some ([], d :: rest)
    else (readBody q (d :: rest)).map fun p => (c :: p.1, p.2)

theorem readBody_cons_of_ne {q c : Char} (h : c ≠ q) (rest : List Char) (hr : rest ≠ []) :
    readBody q (c :: rest) = (readBody q rest).map fun p => (c :: p.1, p.2) := by
  cases rest with
  | nil => exact absurd rfl hr
  | cons d rest => rw [readBody]; simp [h]

/-- What follows a closing quote must not be one more quote. -/
theorem readBody_body (q : Char) (cs rest : List Char) (h : rest.head? ≠ some q) :
    readBody q (body q cs ++ q :: rest) = some (cs, rest) := by
  induction cs with
  | nil =>
    cases rest with
    | nil => simp [body, readBody]
    | cons d rest =>
      have hd : d ≠ q := by simpa using h
      simp [body, readBody, hd]
  | cons c cs ih =>
    by_cases hc : c = q
    · subst hc; simp [body, readBody, ih]
    · simp only [body, hc, if_false, List.cons_append]
      rw [readBody_cons_of_ne hc _ (by simp), ih]
      rfl

end QueryBoard.Text.Quoted
