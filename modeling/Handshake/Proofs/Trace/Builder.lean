import Handshake.Trace.Basic
import Handshake.Proofs.Trace.Grammar.Text
set_option autoImplicit false

/-! Traces built from the pairs of the grammar. The walk over the pairs takes their parts one by
one and gives up where one is missing, or where it reports a fault. It does what the reader of
traces does: on the pairs of a text no part is missing. -/

namespace Handshake.Trace

namespace Builder

open Grammar (Pair)

/-! ### Giving up -/

inductive Unread where
  /-- a pair without a part that the grammar gives to it, of which nothing is reported -/
  | malformed (what : String)
  | fault (fault : Fault)

def Unread.message : Unread → String
  | malformed what => "malformed trace: missing " ++ what
  | fault found => found.message

abbrev Build := ExceptT Unread (StateM Report)

/-- A text, and the index of its file in the report. -/
structure Source where
  file : Nat
  text : List Char

def Source.failure (source : Source) (extent : Extent) (fault : Fault) : Failure :=
  ⟨fault, offsetOf source.text extent.start, offsetOf source.text extent.stop⟩

def child (what : String) : List Pair → Build (Pair × List Pair)
  | [] => throw (.malformed what)
  | first :: rest => pure (first, rest)

section

variable (source : Source)

def giveUp {α : Type} (failure : Failure) : Build α := do
  modify (fun report => report.add
    (.located .error failure.fault.message ⟨source.file, failure.start, failure.stop⟩))
  throw (.fault failure.fault)

def fail {α : Type} (pair : Pair) (fault : Fault) : Build α :=
  giveUp source (source.failure pair.extent fault)

/-! ### Attributes -/

def number (literal : Pair) : Build Nat :=
  match Integer.parse literal.text with
  | .error fault => fail source literal (.integer literal.text fault)
  | .ok value => pure value

def word (attr : Pair) : Option Pair → Build (List Char)
  | none => fail source attr .notWord
  | some value => if value.rule = .ident then pure value.text else fail source attr .notWord

def keyword {α : Type} (attr : Pair) (vocabulary : Vocabulary) (keyword : α → String)
    (all : List α) (value : Option Pair) : Build α := do
  let word ← word source attr value
  match all.find? (fun candidate => (keyword candidate).toList == word) with
  | some found => pure found
  | none => fail source attr (.unknownWord vocabulary word)

def snoop (attr : Pair) (value : Option Pair) : Build Snoop := do
  let word ← word source attr value
  match Snoop.ofName? (String.ofList word) with
  | some snoop => pure snoop
  | none => fail source attr (.unknownSnoop word)

def int (attr : Pair) (maximum : Nat) : Option Pair → Build Nat
  | none => fail source attr .notInteger
  | some given =>
      if given.rule = .integer then do
        let value ← number source given
        if value ≤ maximum then pure value else fail source given (.tooLarge value maximum)
      else fail source attr .notInteger

def setting (attr : Pair) (name : List Char) (value : Option Pair) : Build Setting :=
  match String.ofList name with
  | "cmd" => .command <$> keyword source attr .command Command.name Command.all value
  | "id" => .axiId <$> int source attr 0xFFFFFFFF value
  | "addr" => .address <$> int source attr 0xFFFFFFFFFFFFFFFF value
  | "len" => .length <$> int source attr 255 value
  | "size" => .size <$> int source attr 7 value
  | "bytes" => .bytes <$> int source attr 0xFFFFFFFFFFFFFFFF value
  | "cache" => .cache <$> int source attr 15 value
  | "burst" => .burst <$> keyword source attr .burst burstKeyword BurstType.all value
  | "domain" => .domain <$> keyword source attr .domain domainKeyword Domain.all value
  | "bar" => .barrier <$> keyword source attr .barrier barrierKeyword Barrier.all value
  | "snoop" => .snoop <$> snoop source attr value
  | "snoop_only" =>
      match value with
      | none => pure .snoopOnly
      | some _ => fail source attr .flagWithValue
  | _ => fail source attr (.unknownAttribute name)

def settings (draft : Draft) (seen : List (List Char)) : List Pair → Build Draft
  | [] => pure draft
  | attr :: rest => do
      let (name, given) ← child "attribute name" attr.inner
      let value := given.head?.bind (fun value => value.inner.head?)
      if seen.contains name.text then fail source attr (.duplicate name.text)
      else do
        let setting ← setting source attr name.text value
        settings (draft.apply setting) (name.text :: seen) rest

def declaration (uid : TxnId) (label attrlist : Pair) : Build Transaction := do
  let draft ← settings source {} [] attrlist.inner
  match draft.command with
  | some command => pure (draft.record uid command)
  | none => fail source label (.missingCommand label.text)

/-! ### Events -/

def now (last : Nat) (time clock : Pair) : Build Nat := do
  let now ← number source clock
  if now < last then fail source time (.timeDecreases now last) else pure now

def phase (pair : Pair) : Build Phase :=
  match Phase.ofName? (String.ofList pair.text) with
  | some phase => pure phase
  | none => fail source pair (.unknownPhase pair.text)

def record (declared : List Declared) (label : Pair) (attrlist : Option Pair) :
    Build (Transaction × Bool) :=
  match declared.find? (fun known => known.label = label.text), attrlist with
  | some known, none => pure (known.record, false)
  | some _, some attrs => fail source attrs (.redeclared label.text)
  | none, none => fail source label (.undeclared label.text)
  | none, some attrs => (·, true) <$> declaration source ⟨declared.length⟩ label attrs

def directionOf (pair : Pair) : Direction :=
  if pair.text = ['f', 'w'] then .forward else .backward

def event (progress : Progress) (pair : Pair) : Build Progress := do
  let line := Grammar.lineOf source.text pair.start
  let (time, rest) ← child "time" pair.inner
  let (clock, _) ← child "time value" time.inner
  let now ← now source progress.lastTime time clock
  let (direction, rest) ← child "direction" rest
  let (phasePair, rest) ← child "phase" rest
  let phase ← phase source phasePair
  let (label, rest) ← child "label" rest
  let (record, declares) ← record source progress.declared label rest.head?
  pure
    { events := progress.events ++ [⟨line, now, directionOf direction, phase, record, declares⟩]
      declared :=
        if declares then progress.declared ++ [⟨label.text, record⟩] else progress.declared
      lastTime := now }

def events (progress : Progress) : List Pair → Build Progress
  | [] => pure progress
  | pair :: rest =>
      if pair.rule = .event then do
        let next ← event source progress pair
        events next rest
      else events progress rest

/-- Builds the trace of a text. How a text that the grammar does not match is explained is for
whoever has matched it to say. -/
def build (explain : List Char → Failure) : Build Trace :=
  match Grammar.file source.text with
  | none => giveUp source (explain source.text)
  | some (pairs, _) => do
      let (file, _) ← child "file" pairs
      let progress ← events source .empty file.inner
      pure ⟨progress.events, progress.declared⟩

end

def readTrace (explain : List Char → Failure) (report : Report) (name text : String) :
    Except Unread Trace × Report :=
  let (file, known) := report.addFile name text
  (build ⟨file, text.toList⟩ explain).run.run known

end Builder

end Handshake.Trace
