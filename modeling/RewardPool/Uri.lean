/-!
Which texts are addresses of the form that a service is reached by: an absolute address with a scheme
and an authority, an authority alone, or a path alone.
-/
namespace RewardPool.Uri

def isLetterOrDigit (c : Char) : Bool :=
  ('a' ≤ c && c ≤ 'z') || ('A' ≤ c && c ≤ 'Z') || ('0' ≤ c && c ≤ '9')

def isSchemeChar (c : Char) : Bool := isLetterOrDigit c || c = '+' || c = '-' || c = '.'

def authorityMarks : List Char :=
  ['!', '$', '&', '\'', '(', ')', '*', '+', ',', '-', '.', ';', '=', '_', '~']

/-- What has been seen of an authority. Whatever stands before an at sign is not part of the host. -/
structure Authority where
  colons : Nat
  opened : Bool
  closed : Bool
  percent : Bool
  afterAt : Bool

namespace Authority

def start : Authority := ⟨0, false, false, false, false⟩

def step (a : Authority) (c : Char) : Option Authority :=
  if c = '@' then some { a with colons := 0, percent := false, afterAt := true }
  else
    let a := { a with afterAt := false }
    if c = ':' then if 8 ≤ a.colons then none else some { a with colons := a.colons + 1 }
    else if c = '[' then if a.percent || a.opened then none else some { a with opened := true }
    else if c = ']' then
      if !a.opened || a.closed then none
      else some { a with closed := true, colons := 0, percent := false }
    else if c = '%' then some { a with percent := true }
    else if isLetterOrDigit c || authorityMarks.contains c then some a
    else none

/-- Whether the authority may end here. -/
def isDone (a : Authority) : Bool :=
  a.opened = a.closed && a.colons ≤ 1 && !a.percent && !a.afterAt

end Authority

def isAuthority (cs : List Char) : Bool :=
  !cs.isEmpty && (cs.foldlM Authority.step .start).any Authority.isDone

def isPathChar (c : Char) : Bool :=
  let n := c.toNat
  n = 0x21 || n = 0x22 || (0x24 ≤ n && n ≤ 0x3B) || n = 0x3D || (0x40 ≤ n && n ≤ 0x5F)
    || (0x61 ≤ n && n ≠ 0x7F)

def isQueryChar (c : Char) : Bool :=
  let n := c.toNat
  n = 0x21 || (0x24 ≤ n && n ≤ 0x3B) || n = 0x3D || (0x3F ≤ n && n ≠ 0x7F)

/-- Whether characters are a path, with or without a query; what follows a number sign is free. -/
def isPath (cs : List Char) : Bool :=
  let cs := cs.takeWhile (· ≠ '#')
  (cs.takeWhile (· ≠ '?')).all isPathChar && (cs.dropWhile (· ≠ '?')).all isQueryChar

def endsAuthority (c : Char) : Bool := c = '/' || c = '?' || c = '#'

/-- What follows the scheme, if there is one. -/
def dropScheme? (cs : List Char) : Option (List Char) :=
  match cs.dropWhile isSchemeChar with
  | ':' :: '/' :: '/' :: rest => some rest
  | _ => none

def isUri (text : String) : Bool :=
  match text.toList with
  | [] => false
  | ['*'] => true
  | '/' :: path => isPath ('/' :: path)
  | cs =>
    match dropScheme? cs with
    | none => isAuthority cs
    | some rest =>
      (cs.takeWhile isSchemeChar).length ≤ 64
        && isAuthority (rest.takeWhile fun c => !endsAuthority c)
        && isPath (rest.dropWhile fun c => !endsAuthority c)

end RewardPool.Uri
