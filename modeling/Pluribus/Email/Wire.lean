import Mathlib.Data.List.Dedup
import Pluribus.Lib.JsonText
import Pluribus.Runtime.Imports

namespace Pluribus.Email

open Lib Pluribus.Core Pluribus.Runtime

structure FetchItems where
  uid : Option Nat
  size : Option Nat
  internalDate : Option String
  body : Option (List UInt8)
deriving DecidableEq, Repr

/-- One logical response: its text, and its items if it is a FETCH that can be read. -/
structure Response where
  text : String
  fetch : Option FetchItems
deriving DecidableEq, Repr

def Response.isContinuation (response : Response) : Bool := Text.startsWith "+" response.text

def unavailable (message : String) : HostError := ⟨.unavailable, message⟩

inductive Status where
  | ok
  | no
  | bad
deriving DecidableEq, Repr

structure Completion where
  status : Status
  untagged : List Response
deriving DecidableEq, Repr

/-- The status of a response when it is the completion of `tag`. -/
def taggedStatus (response : Response) (tag : String) : Except HostError (Option Status) :=
  match Text.after (tag.toList ++ [' ']) response.text.toList with
  | none => .ok none
  | some rest =>
    let word := String.ofList (((Text.split ' ' rest).headD []).map Char.toUpper)
    if word = "OK" then .ok (some .ok)
    else if word = "NO" then .ok (some .no)
    else if word = "BAD" then .ok (some .bad)
    else .error (unavailable "endpoint sent an unknown completion status")

def requireOk (completion : Completion) (command : String) : Except HostError Unit :=
  match completion.status with
  | .ok => .ok ()
  | .no => .error (unavailable ("endpoint refused " ++ command))
  | .bad => .error ⟨.internal, "endpoint rejected " ++ command ++ " as malformed"⟩

/-- What the transport answers a read: bytes that complete so many responses (none, when they are a
part of one), nothing, or that the connection is gone. A response past the ceiling is an error in its place. -/
inductive Chunk where
  | bytes (responses : List (Except HostError Response))
  | empty
  | failed (error : HostError)

/-- The responses that are complete and not yet taken, whether a response has started to arrive,
and the last tag that was used. -/
structure Connection where
  buffer : List (Except HostError Response)
  midway : Bool
  tag : Nat

def Connection.new : Connection := ⟨[], false, 0⟩

def Connection.nextTag (c : Connection) : String × Connection :=
  let digits := (c.tag + 1).repr
  ("p" ++ String.ofList (List.replicate (4 - digits.length) '0') ++ digits, { c with tag := c.tag + 1 })

/-- How far a read has come: `waiting` is one that needs more of the transport. -/
inductive Reading where
  | response (response : Response)
  | nothing
  | failed (error : HostError)
  | waiting

/-- One piece of a read: a response that is there is taken, and otherwise the transport is asked once. -/
def Connection.read (c : Connection) (chunk : Chunk) : Reading × Connection :=
  match c.buffer with
  | .ok response :: rest => (.response response, { c with buffer := rest })
  | .error error :: rest => (.failed error, { c with buffer := rest })
  | [] =>
    match chunk with
    | .bytes responses => (.waiting, { c with buffer := responses, midway := responses.isEmpty })
    | .empty =>
      if c.midway then (.failed (unavailable "endpoint closed mid-response"), c)
      else (.nothing, c)
    | .failed error => (.failed error, c)

/-- A command whose completion is being read: its tag, and the untagged responses so far. -/
structure Pending where
  tag : String
  untagged : List Response

inductive Collected where
  | more (pending : Pending)
  | complete (completion : Completion)
  | failed (error : HostError)

def Pending.collect (pending : Pending) : Reading → Collected
  | .response response =>
    match taggedStatus response pending.tag with
    | .error error => .failed error
    | .ok none => .more { pending with untagged := pending.untagged ++ [response] }
    | .ok (some status) => .complete ⟨status, pending.untagged⟩
  | .nothing => .failed (unavailable "endpoint closed before completing a command")
  | .failed error => .failed error
  | .waiting => .more pending

structure Mailbox where
  uidValidity : Nat
  uidNext : Nat
  «exists» : Nat
deriving DecidableEq, Repr

/-- The unsigned value of a response code such as `[UIDVALIDITY 1234]`. -/
def bracketed (text code : String) : Option Nat := do
  let opening := ("[" ++ code ++ " ").toList
  let start ← text.toList.tails.find? opening.isPrefixOf
  let rest := start.drop opening.length
  if rest.contains ']' then Text.parseU64 (Text.trim (rest.takeWhile (· ≠ ']'))) else none

def Mailbox.told (state : Mailbox) (response : Response) : Mailbox :=
  let count := do
    let rest ← Text.after "* ".toList response.text.toList
    let count ← Text.before " EXISTS".toList rest
    Text.parseU64 count
  ⟨(bracketed response.text "UIDVALIDITY").getD state.uidValidity, (bracketed response.text "UIDNEXT").getD state.uidNext,
    count.getD state.exists⟩

def Mailbox.opened (untagged : List Response) : Mailbox := untagged.foldl Mailbox.told ⟨0, 0, 0⟩

def Response.uids (response : Response) : List Nat :=
  match Text.after "* SEARCH".toList response.text.toList with
  | none => []
  | some rest => (Text.words rest).filterMap Text.parseU64

/-- The UIDs above `after`, ascending, at most `limit` of them. -/
def searchSince (untagged : List Response) (after limit : Nat) : List Nat :=
  ((((untagged.flatMap Response.uids).filter (after < ·)).mergeSort (· ≤ ·)).dedup).take limit

def highestUid (untagged : List Response) : Nat := (untagged.flatMap Response.uids).foldl max 0

/-- The first FETCH of a message among the responses to a command. -/
def fetchItems (untagged : List Response) (uid : Nat) : Option FetchItems :=
  (untagged.filterMap Response.fetch).find? (·.uid = some uid)

/-- Whether a pushed response means the mailbox gained something to look at. -/
def Response.announcesArrival (response : Response) : Bool :=
  match (Text.after "* ".toList response.text.toList).map (Text.split ' ') with
  | some (count :: kind :: _) =>
    (Text.parseU64 count).isSome && (kind = "EXISTS".toList || kind = "RECENT".toList)
  | _ => false

def quoted (value : String) : Except HostError String :=
  if value.toList.any fun c => c = '\r' || c = '\n' || c = '\x00' then
    .error ⟨.invalidArgument, "value cannot appear in an IMAP command"⟩
  else .ok ("\"" ++ String.ofList (value.toList.flatMap fun c => if c = '\\' || c = '"' then ['\\', c] else [c]) ++ "\"")

end Pluribus.Email
