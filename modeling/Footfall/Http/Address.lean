import Footfall.Fault

/-!
Addresses of resources: a path, a query and a fragment behind an origin. In the path a segment `.`
stands for nothing and a segment `..` takes back the segment before it. Characters that must not
stand in a part are written as the bytes of their code, in percent-encoding; what is percent-encoded
already is left as it is.
-/

namespace Footfall.Http

structure Address where
  origin : String
  path : String
  query : Option String
  fragment : Option String
  deriving DecidableEq, Repr

namespace Address

def maxLength : Nat := 65536

def isUnprintable (c : Char) : Bool := decide (c.toNat < 32 ∨ c.toNat = 127)

/-- The first thing that is wrong with the characters of an address. -/
def fault? (cs : List Char) : Option AddressFault :=
  if maxLength < cs.length then some .tooLong
  else
    match cs.dropWhile (!isUnprintable ·) with
    | [] => none
    | c :: rest => some (.unprintable c (cs.length - rest.length - 1))

def step (path : List String) (segment : String) : List String :=
  if segment = "." then path
  else if segment = ".." then (if path = [""] then path else path.dropLast)
  else path ++ [segment]

/-- The path without the segments `.` and `..`. -/
def resolved (path : String) : String := "/".intercalate ((path.splitOn "/").foldl step [])

/-- Splits an address, whose origin is known, at the first question mark and number sign. -/
def read (origin rest : String) : Except AddressFault Address :=
  match fault? (origin ++ rest).toList with
  | some f => .error f
  | none =>
    let front := rest.toList.takeWhile (· ≠ '#')
    let after? (c : Char) (cs : List Char) := match cs.dropWhile (· ≠ c) with
      | [] => none
      | _ :: cs => some (String.ofList cs)
    .ok ⟨origin, resolved (String.ofList (front.takeWhile (· ≠ '?'))), after? '?' front,
      after? '#' rest.toList⟩

/-- The bytes of a character, each as a percent sign and two digits. -/
def encoded (c : Char) : List Char :=
  c.toString.toUTF8.toList.flatMap fun b ↦ '%' :: (Text.hex 2 b.toNat).map Char.toUpper

def escape (isAllowed : Char → Bool) : List Char → List Char
  | [] => []
  | '%' :: a :: b :: rest =>
    if (Json.hexValue? a).isSome && (Json.hexValue? b).isSome then
      '%' :: a :: b :: escape isAllowed rest
    else '%' :: escape isAllowed (a :: b :: rest)
  | c :: rest => (if isAllowed c then [c] else encoded c) ++ escape isAllowed rest

def isPrintableBut (others : List Char) (c : Char) : Bool :=
  decide (32 < c.toNat ∧ c.toNat < 127) && !others.contains c

def isInPath : Char → Bool := isPrintableBut ['"', '#', '<', '>', '?', '\x60', '\x7b', '\x7d']
def isInQuery : Char → Bool := isPrintableBut ['"', '#', '<', '>']
def isInFragment : Char → Bool := isPrintableBut ['"', '<', '>', '\x60']

def escapeText (isAllowed : Char → Bool) (s : String) : String :=
  String.ofList (escape isAllowed s.toList)

def text (a : Address) : String :=
  a.origin ++ escapeText isInPath a.path ++
    (match a.query with | some q => "?" ++ escapeText isInQuery q | none => "") ++
    (match a.fragment with | some f => "#" ++ escapeText isInFragment f | none => "")

theorem escape_of_all_allowed {isAllowed : Char → Bool} {cs : List Char}
    (h : ∀ c ∈ cs, isAllowed c = true) : escape isAllowed cs = cs := by
  fun_induction escape isAllowed cs with
  | case1 => rfl
  | case2 a b rest _ ih => rw [ih fun c hc ↦ h c (by simp [hc])]
  | case3 a b rest _ ih => rw [ih fun c hc ↦ h c (List.mem_cons_of_mem _ hc)]
  | case4 c rest _ ih => simp [h c (by simp), ih fun d hd ↦ h d (by simp [hd])]

end Address

end Footfall.Http
