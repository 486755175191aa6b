import ArmControl.Host.Files
import ArmControl.Settings.Basic
import ArmControl.Toml.Document

/-!
# Settings in a document

Settings are written as a TOML document, with a key for each; a setting that is not given keeps its
default, and keys that mean nothing here are passed over, as long as every number behind them can be read.
A deviation is given whole: as a table with all its parts, or as an array that begins with them; what
stands behind them in the array is not looked at.
-/

namespace ArmControl.Settings

open Toml (Table Value)

/-- Passes over the keys of a table that are not among the known ones. -/
def passOver (known : List String) (t : Table) : Except SettingsFault Unit :=
  t.forM fun (key, v) =>
    if known.contains key || v.isReadable then .ok () else .error (.outOfRange key)

/-- The number of a value; an integer of 64 bits counts as the number nearest to it. -/
def readNumber (key : String) : Value → Except SettingsFault Binary64
  | .float x => .ok x
  | .integer n =>
    if -0x8000000000000000 ≤ n ∧ n < 0x10000000000000000 then .ok (.ofInt n)
    else .error (.outOfRange key)
  | _ => .error (.wrongKind key)

/-- A natural number below a bound. -/
def readNatural (bound : Nat) (key : String) : Value → Except SettingsFault Nat
  | .integer n => if 0 ≤ n ∧ n < bound then .ok n.toNat else .error (.outOfRange key)
  | _ => .error (.wrongKind key)

/-- The number under a key of a table that must have it. -/
def readPart (t : Table) (key : String) : Except SettingsFault Binary64 :=
  match Table.get? key t with
  | some v => readNumber key v
  | none => .error (.missing key)

def readParts (t : Table) : Except SettingsFault Deviation := do
  passOver ["translation", "rotation", "elbow"] t
  return ⟨← readPart t "translation", ← readPart t "rotation", ← readPart t "elbow"⟩

def readDeviation (key : String) : Value → Except SettingsFault Deviation
  | .table _ parts => readParts parts
  | .array (translation :: rotation :: elbow :: _) => do
    return ⟨← readNumber key translation, ← readNumber key rotation, ← readNumber key elbow⟩
  | .array _ => .error (.missing key)
  | _ => .error (.wrongKind key)

def realtimeNamed (key : String) : String → Except SettingsFault Realtime
  | "enforce" => .ok .enforce
  | "ignore" => .ok .ignore
  | _ => .error (.unknownChoice key)

/-- A choice by its name, which may also be the only key of a table and have an empty value. -/
def readRealtime (key : String) : Value → Except SettingsFault Realtime
  | .text name => realtimeNamed key name
  | .table _ [(name, .table _ [])] => realtimeNamed key name
  | .table _ [(name, .array [])] => realtimeNamed key name
  | _ => .error (.wrongKind key)

/-- The setting under a key, or its default. -/
def readSetting {α : Type} (t : Table) (key : String) (read : String → Value → Except SettingsFault α)
    (default : α) : Except SettingsFault α :=
  match Table.get? key t with
  | some v => read key v
  | none => .ok default

def readMilliseconds (key : String) (v : Value) : Except SettingsFault UInt64 :=
  UInt64.ofNat <$> readNatural UInt64.size key v

def readPort (key : String) (v : Value) : Except SettingsFault UInt16 :=
  UInt16.ofNat <$> readNatural UInt16.size key v

/-- The keys of the settings. -/
def keys : List String :=
  ["port", "connect_timeout_ms", "receive_timeout_ms", "command_timeout_ms", "realtime",
    "maximum_path_deviation", "maximum_goal_deviation"]

/-- The settings of a document. -/
def ofTable (t : Table) : Except SettingsFault Settings := do
  passOver keys t
  let d : Settings := {}
  return {
    port := ← readSetting t "port" readPort d.port
    connectTimeout := ← readSetting t "connect_timeout_ms" readMilliseconds d.connectTimeout
    receiveTimeout := ← readSetting t "receive_timeout_ms" readMilliseconds d.receiveTimeout
    commandTimeout := ← readSetting t "command_timeout_ms" readMilliseconds d.commandTimeout
    realtime := ← readSetting t "realtime" readRealtime d.realtime
    path := ← readSetting t "maximum_path_deviation" readDeviation d.path
    goal := ← readSetting t "maximum_goal_deviation" readDeviation d.goal }

/-- The settings that a text gives. -/
def parse (text : String) : Except SettingsError Settings :=
  match Toml.parse text with
  | .error fault => .error (.malformed (.document fault))
  | .ok t =>
    match ofTable t with
    | .error fault => .error (.malformed fault)
    | .ok settings => .ok settings

/-- The settings in a file. -/
def load (path : String) : File → Except SettingsError Settings
  | .unreadable reason => .error (.unreadable path reason)
  | .contents bytes =>
    match String.fromUTF8? bytes with
    | none => .error (.notUtf8 path)
    | some text => parse text

end ArmControl.Settings
