import QueryBoard.Main
import QueryBoard.Store.Write
import QueryBoard.Proofs.Compile.Outcome
import QueryBoard.Proofs.Compile.Rendering
import QueryBoard.Proofs.Store.Reading
import QueryBoard.Proofs.Compile.JoinTree
import QueryBoard.Proofs.Store.Dashboards
import QueryBoard.Proofs.Store.EditedTree
import QueryBoard.Proofs.Compile.Determined
import QueryBoard.Proofs.Wire.RoundTrip
import QueryBoard.Proofs.Wire.Written
import QueryBoard.Proofs.Compile.Values
import QueryBoard.Proofs.Store.Agreement
import QueryBoard.Proofs.Schema.Offline
import QueryBoard.Proofs.Compile.OutputNames
import QueryBoard.Proofs.Execution.Records
import QueryBoard.Proofs.Source.Isolation
import QueryBoard.Proofs.Compile.Grouping
import QueryBoard.Proofs.Compile.Predicates
import QueryBoard.Proofs.Execution.Total
import QueryBoard.Proofs.Hierarchy.SingleWidget
import QueryBoard.Proofs.Execution.Binding
import QueryBoard.Proofs.Db.Row
import QueryBoard.Proofs.Store.Deletion
import QueryBoard.Proofs.Store.FailedWrites
import QueryBoard.Proofs.Store.TableReads
import QueryBoard.Proofs.Store.DashboardReads
import QueryBoard.Proofs.Compile.SchemaUse
import QueryBoard.Proofs.Settings.Expansion
import QueryBoard.Proofs.Wire.Value
import QueryBoard.Proofs.Hierarchy.Walk
