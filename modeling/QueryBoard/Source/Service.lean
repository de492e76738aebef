import QueryBoard.Source.Registry

/-!
# Requests to sources

A request names the source that it is for, and asks to run a query there or to describe the source.
What goes wrong with a query is part of the response; only a source that is not registered leaves a
request without a reply.  Requests are answered one after the other, each by what the ones before it
have left.
-/

set_option autoImplicit false

namespace QueryBoard

inductive Request where
  | execute (source : String) (q : Query)
  | tables (source : String)
  | table (source name : String)
  | functions (source : String)
deriving Repr

def Request.source : Request → String
  | .execute source _ | .tables source | .table source _ | .functions source => source

inductive Reply where
  | response (r : QueryResponse)
  | tables (r : Except QueryError (List Table))
  | table (r : Except QueryError Table)
  | functions (fs : List (SemanticType × List Aggregate))

/-- What a request for a storage finds out, and the storage after it. -/
def Storage.serve (s : Storage) : Request → Reply × Storage
  | .execute _ q =>
    let (outcome, s) := s.execute q
    (.response outcome.response, s)
  | .tables _ => (.tables (s.tables.mapError .schema), s)
  | .table _ name => (.table ((s.table name).mapError .schema), s)
  | .functions _ => (.functions QueryBoard.functions, s)

namespace Sources

abbrev Answer := Except RegistryError Reply

/-- The answer to a request, and the sources after it. -/
def answer (s : Sources) (r : Request) : Answer × Sources :=
  match s.within r.source (·.serve r) with
  | .ok (reply, s) => (.ok reply, s)
  | .error e => (.error e, s)

/-- The answers to requests that come one after the other. -/
def run (s : Sources) : List Request → List (Request × Answer)
  | [] => []
  | r :: rest =>
    let (a, s) := s.answer r
    (r, a) :: run s rest

end Sources

end QueryBoard
