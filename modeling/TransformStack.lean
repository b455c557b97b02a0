import TransformStack.Proofs.Value.MessagePack
import TransformStack.Proofs.Editor.Failure
import TransformStack.Proofs.Editor.Acceptance
import TransformStack.Proofs.Edit.Joining
import TransformStack.Proofs.Command.Living
import TransformStack.Proofs.Command.Weaving
import TransformStack.Proofs.Stack.Foreign
import TransformStack.Proofs.Store.Values
import TransformStack.Proofs.Stack.Locks
import TransformStack.Proofs.Editor.Coalescing
import TransformStack.Proofs.Stack.Allowed
import TransformStack.Proofs.Editor.Forming
import TransformStack.Proofs.Stack.Inserting
import TransformStack.Proofs.Editor.Closing
import TransformStack.Proofs.Command.Reexecuting
import TransformStack.Proofs.Editor.Giving
import TransformStack.Proofs.Stack.Ordering
import TransformStack.Proofs.Editor.Splitting
import TransformStack.Proofs.Stack.Finiteness
import TransformStack.Proofs.Stack.Authoring
import TransformStack.Proofs.Stack.Asking
import TransformStack.Proofs.Editor.Quaternions
