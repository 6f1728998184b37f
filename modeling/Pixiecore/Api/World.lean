import Pixiecore.Misc.Prog
import Pixiecore.Misc.Reader

/-!
# What booters and the HTTP server ask for

Their questions to the outside: HTTP requests, randomness, files. The memory that slices
live in is asked for as well, because `BootSpec` returns a slice that `PxelinuxConfig`
rewrites in place, and so are the two operations of `secretbox`, so that what was sealed
and what was opened can be seen in the events. `answer` answers the questions of one
program after the other; memory and `secretbox` leave no choice there.
-/

namespace Pixiecore.Api

/-- `[24]byte`. -/
structure Nonce where
  bytes : Bytes
  size : bytes.length = 24
  deriving DecidableEq, Repr

/-- `[32]byte`. -/
structure Key where
  bytes : Bytes
  size : bytes.length = 32
  deriving DecidableEq, Repr

/-- A `[]string`, as the array it refers to and its length. -/
structure Slice where
  arr : Nat
  len : Nat
  deriving DecidableEq, Repr

/-- `http.Response`, as far as it is looked at. -/
structure HTTPResponse where
  statusCode : Nat
  body : Reader
  deriving DecidableEq, Repr

inductive Question where
  /-- `b.client.Get`. -/
  | apiGet (url : Bytes)
  /-- `io.ReadFull(rand.Reader, nonce[:])`. -/
  | random
  | sealBox (nonce : Nonce) (message : Bytes)
  | openBox (nonce : Nonce) (box : Bytes)
  /-- `http.Get`. -/
  | httpGet (url : Bytes)
  /-- `os.Open`. -/
  | openFile (path : Bytes)
  /-- A new array with the given elements, and a slice of all of it. -/
  | makeSlice (elems : List Bytes)
  | index (s : Slice) (i : Nat)
  | setIndex (s : Slice) (i : Nat) (v : Bytes)
  deriving DecidableEq, Repr

/-- The answers. Errors are what their `Error()` method returns. -/
abbrev Answer : Question → Type
  | .apiGet _ => Except Bytes HTTPResponse
  | .random => Except Bytes Nonce
  | .sealBox _ _ => Bytes
  | .openBox _ _ => Option Bytes
  | .httpGet _ => Except Bytes HTTPResponse
  | .openFile _ => Except Bytes Reader
  | .makeSlice _ => Slice
  | .index _ _ => Bytes
  | .setIndex _ _ _ => Unit

abbrev Program := Prog Question Answer

abbrev Asked := Event Question Answer

abbrev asked (q : Question) (x : Answer q) : Asked := ⟨q, x⟩

def clientGet (url : Bytes) : Program (Except Bytes HTTPResponse) :=
  Prog.ask1 (Question.apiGet url)

def readNonce : Program (Except Bytes Nonce) := Prog.ask1 Question.random

def secretboxSeal (nonce : Nonce) (message : Bytes) : Program Bytes :=
  Prog.ask1 (Question.sealBox nonce message)

def secretboxOpen (nonce : Nonce) (box : Bytes) : Program (Option Bytes) :=
  Prog.ask1 (Question.openBox nonce box)

def httpGet (url : Bytes) : Program (Except Bytes HTTPResponse) :=
  Prog.ask1 (Question.httpGet url)

def osOpen (path : Bytes) : Program (Except Bytes Reader) := Prog.ask1 (Question.openFile path)

def makeSlice (elems : List Bytes) : Program Slice := Prog.ask1 (Question.makeSlice elems)

def index (s : Slice) (i : Nat) : Program Bytes := Prog.ask1 (Question.index s i)

def setIndex (s : Slice) (i : Nat) (v : Bytes) : Program Unit :=
  Prog.ask1 (Question.setIndex s i v)

/-- The elements at the given indices. -/
def readElems (s : Slice) : List Nat → Program (List Bytes)
  | [] => pure []
  | i :: is => do
    let x ← index s i
    let xs ← readElems s is
    pure (x :: xs)

/-- `secretbox`, of which all that is known is that opening undoes sealing under the same nonce
and key. -/
structure Secretbox where
  sealBox : Key → Nonce → Bytes → Bytes
  openBox : Key → Nonce → Bytes → Option Bytes
  openBox_sealBox : ∀ key nonce message,
    openBox key nonce (sealBox key nonce message) = some message

/-- A box that keeps nothing secret: what is known of `secretbox` can be met. -/
def clearBox : Secretbox where
  sealBox _ _ message := message
  openBox _ _ box := some box
  openBox_sealBox _ _ _ := rfl

def zeroKey : Key := ⟨List.replicate 32 0, rfl⟩

/-- Everything outside the process, which may answer as it likes and remember what it was
asked. -/
structure Outside (W : Type) where
  apiGet : W → Bytes → Except Bytes HTTPResponse × W
  random : W → Except Bytes Nonce × W
  httpGet : W → Bytes → Except Bytes HTTPResponse × W
  openFile : W → Bytes → Except Bytes Reader × W

/-- The outside, and the arrays allocated so far. -/
structure World (W : Type) where
  outside : W
  arrays : List (List Bytes)

/-- The elements of a slice. -/
def World.elems {W : Type} (w : World W) (s : Slice) : List Bytes := w.arrays.getD s.arr []

/-- The answer to a question, and the world afterwards. -/
def answer {W : Type} (out : Outside W) (box : Secretbox) (key : Key) (w : World W) :
    (q : Question) → Answer q × World W
  | .apiGet url =>
    let (x, o) := out.apiGet w.outside url
    (x, { w with outside := o })
  | .random =>
    let (x, o) := out.random w.outside
    (x, { w with outside := o })
  | .sealBox nonce message => (box.sealBox key nonce message, w)
  | .openBox nonce b => (box.openBox key nonce b, w)
  | .httpGet url =>
    let (x, o) := out.httpGet w.outside url
    (x, { w with outside := o })
  | .openFile path =>
    let (x, o) := out.openFile w.outside path
    (x, { w with outside := o })
  | .makeSlice elems =>
    (⟨w.arrays.length, elems.length⟩, { w with arrays := w.arrays ++ [elems] })
  | .index s i => ((w.elems s).getD i [], w)
  | .setIndex s i v => ((), { w with arrays := w.arrays.set s.arr ((w.elems s).set i v) })

/-- The URLs that were passed to `http.Get`. -/
def httpGets (es : List Asked) : List Bytes :=
  es.filterMap (fun e => match e.question with | .httpGet url => some url | _ => none)

/-- The URLs that were passed to `b.client.Get`. -/
def apiGets (es : List Asked) : List Bytes :=
  es.filterMap (fun e => match e.question with | .apiGet url => some url | _ => none)

/-- The paths that were passed to `os.Open`. -/
def openedFiles (es : List Asked) : List Bytes :=
  es.filterMap (fun e => match e.question with | .openFile path => some path | _ => none)

end Pixiecore.Api
