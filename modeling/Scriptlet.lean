import Scriptlet.CommandLine
import Scriptlet.Heap.Workbench
import Scriptlet.Main
import Scriptlet.Proofs.Heap.Handles
import Scriptlet.Session
import Scriptlet.Proofs.Heap.Scan
import Scriptlet.Proofs.Heap.Collection
import Scriptlet.Proofs.Heap.Component
import Scriptlet.Proofs.Heap.Convergence
import Scriptlet.Proofs.Heap.Change
import Scriptlet.Proofs.Heap.Leak
import Scriptlet.Proofs.Heap.Alike
import Scriptlet.Proofs.Heap.Course
import Scriptlet.Proofs.Evaluation.Steady
import Scriptlet.Proofs.Evaluation.Primitive
import Scriptlet.Proofs.Evaluation.Call
import Scriptlet.Proofs.Evaluation.Program
import Scriptlet.Proofs.Session
import Scriptlet.Proofs.Evaluation.Run
import Scriptlet.Proofs.Heap.Workbench
import Scriptlet.Proofs.Heap.History
import Scriptlet.Proofs.Lifetime
import Scriptlet.Proofs.Bindings
import Scriptlet.Proofs.Parser.Sound
import Scriptlet.Proofs.Parser.Complete
import Scriptlet.Proofs.Token.Lossless
import Scriptlet.Proofs.Diagnosis
import Scriptlet.Proofs.Refusal
import Scriptlet.Proofs.Termination
import Scriptlet.Proofs.Phase
import Scriptlet.Proofs.Semicolon
import Scriptlet.Proofs.Pieces
import Scriptlet.Proofs.Integers
import Scriptlet.Proofs.Heap.Exactness
import Scriptlet.Proofs.Resolution
import Scriptlet.Proofs.Entry
import Scriptlet.Proofs.Evaluation.Overflow
import Scriptlet.Proofs.Depth
import Scriptlet.Proofs.Token.Arrangement
import Scriptlet.Proofs.Equality
import Scriptlet.Proofs.Number.Digits
import Scriptlet.Proofs.Number.Modulo
import Scriptlet.Proofs.Parser.Signature
import Scriptlet.Proofs.Heap.Amortized
import Scriptlet.Proofs.Parser.Nesting
import Scriptlet.Proofs.Parser.Total
import Scriptlet.Proofs.Members
import Scriptlet.Proofs.ObjectLiteral
