namespace Script

inductive AccessError where
  | notFound
  | notDirectory
  | isDirectory
  | nameTooLong
  | nulInName
  | notText
  | other (message : String)
  deriving DecidableEq, Repr

def AccessError.message : AccessError → String
  | notFound => "No such file or directory (os error 2)"
  | notDirectory => "Not a directory (os error 20)"
  | isDirectory => "Is a directory (os error 21)"
  | nameTooLong => "File name too long (os error 36)"
  | nulInName => "file name contained an unexpected NUL byte"
  | notText => "stream did not contain valid UTF-8"
  | other message => message

inductive FileTree where
  | file (content : ByteArray)
  | directory (entries : List (String × FileTree))

namespace FileTree

/-- Follows the parts of a path. The directories above the place reached so far come along, nearest
first; above the last of them there is only an empty one. -/
def follow (place : FileTree) (above : List FileTree) : List String → Except AccessError FileTree
  | [] => .ok place
  | part :: parts =>
    match place with
    | file _ => .error .notDirectory
    | directory entries =>
      if part = "" ∨ part = "." then follow place above parts
      else if part = ".." then
        match above with
        | [] => follow (directory []) [] parts
        | parent :: above => follow parent above parts
      else if 255 < part.utf8ByteSize then .error .nameTooLong
      else
        match entries.lookup part with
        | none => .error .notFound
        | some entry => follow entry (place :: above) parts

/-- The place that a path leads to from here. A path that starts at the root leads out of the
tree. -/
def locate (tree : FileTree) (path : String) : Except AccessError FileTree :=
  if path.contains '\x00' then .error .nulInName
  else if path = "" then .error .notFound
  else if 4096 ≤ path.utf8ByteSize then .error .nameTooLong
  else
    match path.splitOn "/" with
    | "" :: parts => follow (directory []) [] parts
    | parts => follow tree [] parts

def read (tree : FileTree) (path : String) : Except AccessError ByteArray := do
  match ← tree.locate path with
  | file content => return content
  | directory _ => .error .isDirectory

end FileTree

def decodeText (content : ByteArray) : Except AccessError String :=
  match String.fromUTF8? content with
  | some text => .ok text
  | none => .error .notText

end Script
