/-!
# Arguments of the packer

A command line names an image, then a task with its own options. An option is
given at most once, by its long name or, where it has one, by its letter; its
value follows in the same argument or in the next.
-/

namespace InodeVolume

namespace Packer

structure Flag where
  long : String
  letter : Option Char := none
deriving DecidableEq

inductive Argument where
  | word
  /-- Everything after it is a word. -/
  | terminator
  | given (flag : Flag) (value : String)
  /-- The value is the next argument. -/
  | awaits (flag : Flag)
  | unknown

/-- What an argument is, where `flags` are known. A lone `-` is a word. -/
def Argument.classify (flags : List Flag) (arg : String) : Argument :=
  match arg.toList with
  | ['-', '-'] => terminator
  | '-' :: '-' :: body =>
    let long := String.ofList (body.takeWhile (· != '='))
    match flags.find? (·.long == long), body.dropWhile (· != '=') with
    | none, _ => unknown
    | some flag, [] => awaits flag
    | some flag, _ :: value => given flag (String.ofList value)
  | '-' :: letter :: value =>
    match flags.find? (·.letter == some letter), value with
    | none, _ => unknown
    | some flag, [] => awaits flag
    | some flag, '=' :: value => given flag (String.ofList value)
    | some flag, value => given flag (String.ofList value)
  | _ => word

/-- Whether an argument can be the value of the option before it. -/
def standsAlone (arg : String) : Bool :=
  match arg.toList with
  | '-' :: _ :: _ => false
  | _ => true

/-- The options and words of a command line; with `leading`, the options before the
first word, and all that stands from there on. -/
def scan (flags : List Flag) (leading : Bool) :
    List String → Option (List (Flag × String) × List String)
  | [] => some ([], [])
  | arg :: rest =>
    match Argument.classify flags arg with
    | .unknown => none
    | .terminator => if leading then none else some ([], rest)
    | .word =>
      if leading then some ([], arg :: rest)
      else (scan flags leading rest).map fun (options, words) => (options, arg :: words)
    | .given flag value =>
      (scan flags leading rest).map fun (options, words) => ((flag, value) :: options, words)
    | .awaits flag =>
      match rest with
      | [] => none
      | value :: rest =>
        if standsAlone value then
          (scan flags leading rest).map fun (options, words) => ((flag, value) :: options, words)
        else
          none

def optional (flag : Flag) (options : List (Flag × String)) : Option (Option String) :=
  match options.filter (·.1 == flag) with
  | [] => some none
  | [(_, value)] => some (some value)
  | _ => none

def required (flag : Flag) (options : List (Flag × String)) : Option String :=
  (optional flag options).bind id

def path (text : String) : Option String := if text = "" then none else some text

/-- A number below 2^64 in decimal digits, with or without a plus sign. -/
def number (text : String) : Option Nat :=
  let digits := match text.toList with
    | '+' :: digits => digits
    | digits => digits
  if digits = [] || !digits.all (fun c => '0' ≤ c && c ≤ '9') then
    none
  else
    let n := digits.foldl (fun n c => 10 * n + (c.toNat - '0'.toNat)) 0
    if n < UInt64.size then some n else none

inductive Task where
  | pack (size reserved : Nat) (files : List String)
  | cat (inode : Nat)
deriving DecidableEq, Repr

structure Invocation where
  image : String
  task : Task
deriving DecidableEq, Repr

namespace Invocation

def imageFlag : Flag := ⟨"image", some 'i'⟩

def sizeFlag : Flag := ⟨"size", some 's'⟩

def reservedFlag : Flag := ⟨"reserved", some 'r'⟩

def inodeFlag : Flag := ⟨"inode", none⟩

def defaultSize : Nat := 32768

def defaultReserved : Nat := 1

def numberOr (default : Nat) : Option String → Option Nat
  | none => some default
  | some text => number text

def packTask (args : List String) : Option Task := do
  let (options, words) ← scan [sizeFlag, reservedFlag] false args
  let size ← numberOr defaultSize (← optional sizeFlag options)
  let reserved ← numberOr defaultReserved (← optional reservedFlag options)
  return .pack size reserved (← words.mapM path)

def catTask (args : List String) : Option Task := do
  let (options, words) ← scan [inodeFlag] false args
  guard words.isEmpty
  return .cat (← number (← required inodeFlag options))

def parse (args : List String) : Option Invocation := do
  let (options, rest) ← scan [imageFlag] true args
  let image ← path (← required imageFlag options)
  match rest with
  | "pack" :: args => return ⟨image, ← packTask args⟩
  | "cat" :: args => return ⟨image, ← catTask args⟩
  | _ => none

end Invocation

end Packer

end InodeVolume
