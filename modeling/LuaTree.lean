import LuaTree.Stub.Format
import LuaTree.Tree.Builder
import LuaTree.Tree.Dump
import LuaTree.Session
import LuaTree.Proofs.Outcome
import LuaTree.Proofs.Field
import LuaTree.Proofs.Forest
import LuaTree.Proofs.Links
import LuaTree.Proofs.Format
import LuaTree.Proofs.Threads
import LuaTree.Proofs.Builder
import LuaTree.Proofs.Walk
import LuaTree.Proofs.Iteration
import LuaTree.Proofs.Contraction
import LuaTree.Proofs.Summary
import LuaTree.Proofs.Stubs
import LuaTree.Proofs.RoundTrip
import LuaTree.Proofs.Grammar
import LuaTree.Proofs.Grove
import LuaTree.Proofs.Replay
import LuaTree.Proofs.Arena
import LuaTree.Proofs.Tiling
import LuaTree.Proofs.Quoting
import LuaTree.Proofs.Dumps
import LuaTree.Proofs.Agreement
import LuaTree.Proofs.Views
import LuaTree.Proofs.Questions
import LuaTree.Proofs.Requests
import LuaTree.Proofs.Steps
import LuaTree.Proofs.Sessions
import LuaTree.Proofs.Description
import LuaTree.Proofs.Loading
import LuaTree.Proofs.Twins
import LuaTree.Proofs.History
import LuaTree.Proofs.Visits
import LuaTree.Proofs.Extension
import LuaTree.Proofs.Outline
import LuaTree.Proofs.Image
import LuaTree.Proofs.Formatting
import LuaTree.Proofs.Faults
import LuaTree.Proofs.Sameness
import LuaTree.Proofs.Memos
import LuaTree.Proofs.Absence
import LuaTree.Proofs.Disagreement
import LuaTree.Proofs.Lookups
import LuaTree.Proofs.Naming
import LuaTree.Proofs.Parentheses
import LuaTree.Proofs.Dispatch
import LuaTree.Proofs.Carrying
import LuaTree.Proofs.Trivia
import LuaTree.Proofs.Order
import LuaTree.Proofs.Consistency
import LuaTree.Proofs.Navigation
