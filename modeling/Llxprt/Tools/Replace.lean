import Llxprt.Rust.Matching
import Llxprt.Tools.Arguments
import Llxprt.Tools.Publication
import Llxprt.Tools.Truncation

/-!
# The edit of a file

A call reads the file, derives the new bytes from its text, and publishes them.
It is refused unless the old string has as many matches as expected, one where
nothing is expected.  Matches are counted by a scan that passes over what it has
matched, so occurrences that overlap count as one.
-/

namespace Llxprt.Tools

open Llxprt.Rust Llxprt.Rust.Files
open Llxprt.Kernel (utf8)

section Digests

end Digests

section Derivation

variable (texts : Texts)

end Derivation

section Calls

variable (texts : Texts)

end Calls

section Lengths

variable {source old new : List UInt8} {count : Nat}

end Lengths

section Requests

variable {texts : Texts} {args : Arguments} {request : ReplaceRequest} {file : ReplaceSource}
  {edit : Edit}

end Requests

section Inquiries

variable {texts : Texts}

variable {resolve : String → Except String String} {args : Arguments}

end Inquiries

section Publication

variable {texts : Texts} {stage : RetainedStage} {leaf : String} {content : List UInt8}
  {random : Except String String} {expected : PublishCheckpoint} {disk later : Disk}

end Publication

section Editing

variable {texts : Texts} {resolved : Except String String} {file : ReplaceSource}
  {disk later : Disk}

variable {random : Except String String} {resolve : String → Except String String}
  {args : Arguments} {edit : Edit}

end Editing

section Overlapping

end Overlapping

end Llxprt.Tools
