import Bindery.Version
import Bindery.Kind
import Bindery.Spec
import Bindery.SourceRange
import Bindery.Event.Record
import Bindery.Settings.Document
import Bindery.Heap.Lemmas
import Bindery.Heap.Equality
import Bindery.Heap.Printer
import Bindery.Heap.Call
import Bindery.SymbolTable
import Bindery.Namespace.Operation
import Bindery.Namespace.Edit
import Bindery.Realm
import Bindery.Host.Step
import Bindery.Proofs.Namespace.Fits
import Bindery.Proofs.Namespace.Installed
import Bindery.Proofs.Namespace.Journal
import Bindery.Proofs.Host.Session
import Bindery.Proofs.Heap.Shortcut
import Bindery.Proofs.Heap.Display
import Bindery.Proofs.Namespace.Stub
import Bindery.Proofs.Spec
import Bindery.Proofs.Heap.Callables
import Bindery.Proofs.Namespace.Addressed
import Bindery.Proofs.Host.Declared
import Bindery.Proofs.Host.Feedback
import Bindery.Proofs.Realm.Estate
import Bindery.Proofs.Host.Fresh
import Bindery.Proofs.Namespace.Commute
import Bindery.Proofs.Host.Isolated
import Bindery.Proofs.Namespace.Removal
import Bindery.Proofs.Namespace.Filling
import Bindery.Proofs.Host.Refused
import Bindery.Proofs.Host.Stream
import Bindery.Proofs.Heap.Pieces
import Bindery.Proofs.Host.Reports
import Bindery.Proofs.Settings
