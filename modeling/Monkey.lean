import Monkey.Parser
import Monkey.Pull
import Monkey.Lookups
import Monkey.Action
import Monkey.Lexer
import Monkey.Main
import Monkey.Proofs.Derivation
import Monkey.Proofs.Lexeme
import Monkey.Proofs.Yield
import Monkey.Proofs.Semicolon
import Monkey.Proofs.Phrase
import Monkey.Proofs.Standard
import Monkey.Proofs.Acceptance
import Monkey.Proofs.Precedence
import Monkey.Proofs.Written
import Monkey.Proofs.Munch
import Monkey.Proofs.Layout
import Monkey.Proofs.Binding
import Monkey.Proofs.Rendering
import Monkey.Proofs.Grouping
import Monkey.Proofs.Earliest
import Monkey.Proofs.Nodes
import Monkey.Proofs.Unambiguous
import Monkey.Proofs.Relexing
import Monkey.Proofs.Pulling
import Monkey.Proofs.Progress
import Monkey.Proofs.Recovery
import Monkey.Proofs.Forward
import Monkey.Proofs.Singly
import Monkey.Proofs.Extent
import Monkey.Proofs.Monotone
import Monkey.Proofs.Extension
import Monkey.Proofs.Signs
import Monkey.Proofs.Offsets
import Monkey.Proofs.Integers
import Monkey.Proofs.Dump
import Monkey.Proofs.Framing
import Monkey.Proofs.Session
import Monkey.Proofs.Spelling
import Monkey.Proofs.Frame
import Monkey.Proofs.Reached
