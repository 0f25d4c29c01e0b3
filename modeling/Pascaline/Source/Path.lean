import Pascaline.Text.Bytes

/-!
# Slash-separated paths

Paths are cleaned textually: no file system is asked.
-/

namespace Pascaline.Path

def isAbsolute (p : String) : Bool := p.startsWith "/"

/-- The steps of a path; empty steps stand for doubled slashes. -/
def steps (p : String) : List String := (p.toList.splitOnP (· = '/')).map String.ofList

/-- Takes one step from the steps so far, which are in reverse: `..` undoes a step, and goes
above a relative start but not above the root. -/
def step (rooted : Bool) (done : List String) (s : String) : List String :=
  if s = "" || s = "." then done
  else if s = ".." then
    match done with
    | d :: rest => if d = ".." then s :: done else rest
    | [] => if rooted then [] else [s]
  else s :: done

/-- The shortest path of the same meaning. -/
def clean (p : String) : String :=
  let rooted := isAbsolute p
  let body := "/".intercalate ((steps p).foldl (step rooted) []).reverse
  if rooted then "/" ++ body else if body = "" then "." else body

/-- The second path as seen from the first; empty parts do not count. -/
def join (a b : String) : String :=
  if a = "" then (if b = "" then "" else clean b)
  else if b = "" then clean a
  else clean (a ++ "/" ++ b)

/-- The last step of a path. -/
def base (p : String) : String :=
  if p = "" then "."
  else match (steps p).filter (· ≠ "") |>.getLast? with
    | some s => s
    | none => "/"

/-- Everything before the last slash, cleaned. -/
def dir (p : String) : String :=
  match (steps p).dropLast with
  | [] => "."
  | init => clean ("/".intercalate init ++ "/")

/-- The part of the last step from its last dot on. -/
def ext (p : String) : String :=
  let last := ((steps p).getLast?.getD "").toList
  if last.contains '.' then
    String.ofList ('.' :: (last.reverse.takeWhile (· ≠ '.')).reverse)
  else ""

/-- The path as seen from the directory `cwd`. -/
def absolute (cwd p : String) : String := if isAbsolute p then clean p else join cwd p

/-- Drops the steps that two paths share at their front. -/
def dropShared : List String → List String → List String × List String
  | a :: as, b :: bs => if a = b then dropShared as bs else (a :: as, b :: bs)
  | as, bs => (as, bs)

/-- The way from `base` to `target`, unless `base` lies above an unknown start or only one of the
two is absolute. -/
def relative? (base target : String) : Option String :=
  let b := clean base
  let t := clean target
  if b = t then some "."
  else
    let b := if b = "." then "" else b
    if isAbsolute b ≠ isAbsolute t then none
    else
      let (bs, ts) := dropShared ((steps b).filter (· ≠ "")) ((steps t).filter (· ≠ ""))
      if bs.contains ".." then none
      else some ("/".intercalate (List.replicate bs.length ".." ++ ts))

end Pascaline.Path
