import Handshake.Trace.Fault
import Handshake.Transaction.Record
set_option autoImplicit false

/-! The declaration of a transaction. Each attribute is read into a setting; a
declaration that names no attribute twice and gives the command collects its
settings into a record. What is not set keeps the value of a plain record, except
that the byte count follows from the burst. -/

namespace Handshake.Trace

/-! ### Keywords -/

def burstKeyword : BurstType → String
  | .fixed => "fixed"
  | .incr => "incr"
  | .wrap => "wrap"

def domainKeyword : Domain → String
  | .nonShareable => "nsh"
  | .innerShareable => "ish"
  | .outerShareable => "osh"
  | .system => "sys"

def barrierKeyword : Barrier → String
  | .respectBarrier => "respect"
  | .memoryBarrier => "memory"
  | .ignoreBarrier => "ignore"
  | .syncBarrier => "sync"

/-! ### Settings -/

inductive Setting where
  | command (command : Command)
  | axiId (axiId : Nat)
  | address (address : Nat)
  | length (length : Nat)
  | size (size : Nat)
  | burst (burst : BurstType)
  | bytes (bytes : Nat)
  | cache (bits : Nat)
  | domain (domain : Domain)
  | snoop (snoop : Snoop)
  | barrier (barrier : Barrier)
  | snoopOnly
  deriving DecidableEq

inductive Spot where
  | whole
  | value
  deriving DecidableEq

def Spot.part (index : Nat) : Spot → Part
  | whole => .oneAttribute index
  | value => .value index

def wordOf : Option Value → Except (Spot × Fault) (List Char)
  | some (.word word) => .ok word
  | some (.integer _) | none => .error (.whole, .notWord)

def keywordOf {α : Type} (vocabulary : Vocabulary) (keyword : α → String) (all : List α)
    (value : Option Value) : Except (Spot × Fault) α := do
  let word ← wordOf value
  match all.find? (fun candidate => (keyword candidate).toList == word) with
  | some found => .ok found
  | none => .error (.whole, .unknownWord vocabulary word)

def snoopOf (value : Option Value) : Except (Spot × Fault) Snoop := do
  let word ← wordOf value
  match Snoop.ofName? (String.ofList word) with
  | some snoop => .ok snoop
  | none => .error (.whole, .unknownSnoop word)

/-- A value that must be an integer no larger than a maximum. -/
def integerOf (maximum : Nat) : Option Value → Except (Spot × Fault) Nat
  | some (.integer literal) =>
      match Integer.parse literal with
      | .error fault => .error (.value, .integer literal fault)
      | .ok value =>
          if value ≤ maximum then .ok value else .error (.value, .tooLarge value maximum)
  | some (.word _) | none => .error (.whole, .notInteger)

def settingOf (given : Attribute) : Except (Spot × Fault) Setting :=
  let value := given.value
  match String.ofList given.name with
  | "cmd" => (keywordOf .command Command.name Command.all value).map .command
  | "id" => (integerOf 0xFFFFFFFF value).map .axiId
  | "addr" => (integerOf 0xFFFFFFFFFFFFFFFF value).map .address
  | "len" => (integerOf 255 value).map .length
  | "size" => (integerOf 7 value).map .size
  | "burst" => (keywordOf .burst burstKeyword BurstType.all value).map .burst
  | "bytes" => (integerOf 0xFFFFFFFFFFFFFFFF value).map .bytes
  | "cache" => (integerOf 15 value).map .cache
  | "domain" => (keywordOf .domain domainKeyword Domain.all value).map .domain
  | "snoop" => (snoopOf value).map .snoop
  | "bar" => (keywordOf .barrier barrierKeyword Barrier.all value).map .barrier
  | "snoop_only" =>
      match value with
      | none => .ok .snoopOnly
      | some _ => .error (.whole, .flagWithValue)
  | _ => .error (.whole, .unknownAttribute given.name)

/-- The settings of attributes, the first of which has the given index, where some
names were seen before. -/
def settingsFrom (seen : List (List Char)) (index : Nat) :
    List Attribute → Except (Part × Fault) (List Setting)
  | [] => .ok []
  | first :: rest =>
      if first.name ∈ seen then .error (.oneAttribute index, .duplicate first.name)
      else
        match settingOf first with
        | .error (spot, fault) => .error (spot.part index, fault)
        | .ok setting =>
            (settingsFrom (first.name :: seen) (index + 1) rest).map (setting :: ·)

/-! ### Records -/

structure Draft where
  command : Option Command := none
  axiId : Option Nat := none
  address : Option Nat := none
  length : Option Nat := none
  size : Option Nat := none
  burst : Option BurstType := none
  bytes : Option Nat := none
  cache : Option Nat := none
  domain : Option Domain := none
  snoop : Option Snoop := none
  barrier : Option Barrier := none
  snoopOnly : Bool := false
  deriving DecidableEq

namespace Draft

def apply (draft : Draft) : Setting → Draft
  | .command command => { draft with command := some command }
  | .axiId axiId => { draft with axiId := some axiId }
  | .address address => { draft with address := some address }
  | .length length => { draft with length := some length }
  | .size size => { draft with size := some size }
  | .burst burst => { draft with burst := some burst }
  | .bytes bytes => { draft with bytes := some bytes }
  | .cache bits => { draft with cache := some bits }
  | .domain domain => { draft with domain := some domain }
  | .snoop snoop => { draft with snoop := some snoop }
  | .barrier barrier => { draft with barrier := some barrier }
  | .snoopOnly => { draft with snoopOnly := true }

def ofSettings (settings : List Setting) : Draft := settings.foldl apply {}

def record (draft : Draft) (uid : TxnId) (command : Command) : Transaction :=
  let plain := Transaction.plain uid command
  let shaped :=
    plain.withBurst (draft.length.getD 0) (draft.size.getD 0) (draft.burst.getD .incr)
  { shaped with
    axiId := draft.axiId.getD plain.axiId
    address := draft.address.getD plain.address
    bytes := draft.bytes.getD shaped.bytes
    cache := ⟨draft.cache.getD plain.cache.bits⟩
    domain := draft.domain.getD plain.domain
    snoop := draft.snoop.getD plain.snoop
    barrier := draft.barrier.getD plain.barrier
    snoopOnly := draft.snoopOnly }

end Draft

def declare (uid : TxnId) (label : List Char) (given : List Attribute) :
    Except (Part × Fault) Transaction := do
  let settings ← settingsFrom [] 0 given
  let draft := Draft.ofSettings settings
  match draft.command with
  | some command => .ok (draft.record uid command)
  | none => .error (.label, .missingCommand label)

end Handshake.Trace
