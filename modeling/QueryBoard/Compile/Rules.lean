/-!
# Rules

The rules of a select say which output columns belong to which logical key.  They are kept in the
order of their keys, and under a key the columns stand in the order in which they were added.
-/

set_option autoImplicit false

namespace QueryBoard

/-- Output columns by key, in rising order of keys. -/
abbrev Rules := List (String × List String)

namespace Rules

def add (key output : String) : Rules → Rules
  | [] => [(key, [output])]
  | (k, outputs) :: rest =>
    if key = k then (k, outputs ++ [output]) :: rest
    else if key < k then (key, [output]) :: (k, outputs) :: rest
    else (k, outputs) :: add key output rest

def outputs (r : Rules) (key : String) : List String := (r.lookup key).getD []

def put (key : String) (outputs : List String) : Rules → Rules
  | [] => [(key, outputs)]
  | (k, old) :: rest =>
    if key = k then (k, outputs) :: rest
    else if key < k then (key, outputs) :: (k, old) :: rest
    else (k, old) :: put key outputs rest

end Rules

end QueryBoard
