/-
# ImportAtlas.Git -- asking version control

A process is started in the workspace and gives its output, its complaints and an exit code. It may
also not start at all. Of the process nothing else is assumed.

The directory and the words of a command are handed over as they were given. That they are texts matters
only later: for a word when the command is named in a fault, for the directory when a file is placed in
it.
-/
import ImportAtlas.Changes
import ImportAtlas.Misuse
import ImportAtlas.Text.Utf8

namespace ImportAtlas

namespace Git

open Json (Value)

/-- What comes of starting a process. -/
inductive Reply where
  /-- It ran and ended with a code. -/
  | exited (stdout stderr : List UInt8) (code : Int)
  /-- The system could not start it. -/
  | refused (reason : String)
  /-- Starting it failed in another way. -/
  | failed (kind message : String)
  deriving Repr, Inhabited

/-- A process start: the command, and the directory as it was given. -/
structure Call where
  command : List Value
  directory : Value
  deriving Repr, Inhabited

/-- Replies still to come, the last of which stays, and the starts so far. -/
structure Launcher where
  replies : List Reply
  calls : List Call := []
  deriving Repr, Inhabited

namespace Launcher

/-- The next reply, and the replies after it. -/
def nextReply : List Reply → Reply × List Reply
  | [] => (.refused "no git", [])
  | [last] => (last, [last])
  | first :: rest => (first, rest)

/-- Starts a process. -/
def start (l : Launcher) (call : Call) : Reply × Launcher :=
  let (reply, replies) := nextReply l.replies
  (reply, { replies, calls := l.calls ++ [call] })

end Launcher

/-- Why a command gave no output. -/
inductive Fault where
  | notStarted (command : List String) (reason : String)
  | badExit (command : List String) (code : Int) (stderr : List Char)
  /-- A word or the directory is of the wrong kind. -/
  | misuse (m : Misuse)
  /-- An error of another kind, passed on. -/
  | foreign (kind message : String)
  deriving Repr, Inhabited

namespace Fault

/-- The words of a command with blanks between them. -/
def commandText (command : List String) : String := " ".intercalate command

/-- The kind of error that a fault is reported as. -/
def label : Fault → String
  | notStarted _ _ => "GitError"
  | badExit _ _ _ => "GitError"
  | misuse m => m.label
  | foreign kind _ => kind

/-- The wording of a fault. -/
def message : Fault → String
  | notStarted command reason => "Failed to start " ++ commandText command ++ ": " ++ reason
  | badExit command code stderr =>
    commandText command ++ " exited with " ++ toString code ++ ": " ++ String.ofList stderr
  | misuse m => m.message
  | foreign _ text => text

end Fault

/-- The texts of the words of a command, counted from an index. -/
def commandWords : Nat → List Value → Except Misuse (List String)
  | _, [] => .ok []
  | i, .string text :: words => (commandWords (i + 1) words).map (String.ofList text :: ·)
  | i, v :: _ => .error (.notWord i v)

/-- A fault that names its command. -/
def faultOf (command : List Value) (fault : List String → Fault) : Fault :=
  match commandWords 0 command with
  | .ok words => fault words
  | .error m => .misuse m

/-- Runs a command in a directory and gives its output as text. -/
def run (l : Launcher) (directory : Value) (args : List Value) : Except Fault (List Char) × Launcher :=
  let command := .text "git" :: args
  match l.start ⟨command, directory⟩ with
  | (.refused reason, l) => (.error (faultOf command fun words => .notStarted words reason), l)
  | (.failed kind message, l) => (.error (.foreign kind message), l)
  | (.exited stdout stderr code, l) =>
    if code = 0 then (.ok (Text.Utf8.decodeLenient stdout), l)
    else
      (.error (faultOf command fun words =>
        .badExit words code (Text.trim (Text.Utf8.decodeLenient stderr))), l)

/-- Places what an output lists in a workspace. Without a file to place the workspace may be
anything. -/
def placed {α : Type} (workspace : Value) (listed : Path → List α) : Except Misuse (List α) :=
  match workspace.asPath with
  | .ok p => .ok (listed p)
  | .error m => if (listed []).isEmpty then .ok [] else .error m

/-- The output of a command read as a listing of files in a workspace. -/
def listing {α : Type} (l : Launcher) (workspace : Value) (args : List Value)
    (ofOutput : Path → List Char → List α) : Except Fault (List α) × Launcher :=
  match run l workspace args with
  | (.error fault, l) => (.error fault, l)
  | (.ok output, l) => ((placed workspace (ofOutput · output)).mapError .misuse, l)

/-- The changed files of the working tree. -/
def changedFiles (l : Launcher) (workspace : Value) : Except Fault (List ChangedFile) × Launcher :=
  listing l workspace [.text "status", .text "--porcelain"] Changes.ofStatus

/-- The files changed by a commit. -/
def filesOfCommit (l : Launcher) (workspace commit : Value) :
    Except Fault (List ChangedFile) × Launcher :=
  listing l workspace
    [.text "diff-tree", .text "--no-commit-id", .text "--name-status", .text "-r", .text "--root", commit]
    Changes.ofNameStatus

/-- All tracked files. -/
def trackedFiles (l : Launcher) (workspace : Value) : Except Fault (List Path) × Launcher :=
  listing l workspace [.text "ls-files"] Changes.ofListing

end Git

end ImportAtlas
