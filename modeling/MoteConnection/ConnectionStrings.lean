import MoteConnection.Library.Patterns
import MoteConnection.Runtime

/-!
# Connection strings

`ConnectionBuilder::build_transport` and the two builders it makes, with the
two regular expressions that a serial connection string goes through. The
ports of the system and the resolution of addresses are parameters, and so is
the engine that matches the expressions, with the class `\d`, which has more
than the ASCII digits.

Both expressions leave the colon in the group of the baud rate, and no number
is parsed from a text that begins with a colon. So a serial connection string
with a baud rate is always refused.
-/

namespace MoteConnection.ConnectionStrings

open Patterns
open MoteConnection.Runtime
open Outcome

set_option autoImplicit false

/-- What is taken from the `regex` crate: the class `\d`, and the matching of whole texts. -/
structure RegexCrate extends Engine Char where
  digitClass : Char → Bool
  ascii : ∀ digit, digit.isDigit = true → digitClass digit = true
  colon : digitClass ':' = false

/-- Only ASCII digits, and the first match of a backtracking matcher. -/
def asciiBacktracking : RegexCrate :=
  { backtracking with
    digitClass := Char.isDigit
    ascii := fun _ digit => digit
    colon := rfl }

def notColon (symbol : Char) : Bool := symbol != ':'

/-- `(:\d+)?`, with the number of its group. -/
def rateRegex (regex : RegexCrate) (index : Nat) : Pattern Char :=
  .opt (.group index (.seq (.word [':']) (.many regex.digitClass)))

/-- `^(sf|serial)@([^:]+(:\d+)?)$` -/
def connectionRegex (regex : RegexCrate) : Pattern Char :=
  .seq (.group 1 (.alt (.word "sf".toList) (.word "serial".toList)))
    (.seq (.word ['@']) (.group 2 (.seq (.many notColon) (rateRegex regex 3))))

/-- `^([^:]+)(:\d+)?$` -/
def serialRegex (regex : RegexCrate) : Pattern Char :=
  .seq (.group 1 (.many notColon)) (rateRegex regex 2)

def u32Max : Nat := 4294967295

def digitValue (digit : Char) : Nat := digit.toNat - '0'.toNat

def pushDigit (value : Nat) (digit : Char) : Option Nat :=
  if digit.isDigit ∧ 10 * value + digitValue digit ≤ u32Max then
    some (10 * value + digitValue digit)
  else none

def parseU32 (text : List Char) : Option Nat :=
  let digits :=
    match text with
    | '+' :: rest => rest
    | _ => text
  if digits.isEmpty then none else digits.foldlM pushDigit 0

/-- The field that differs from the default of the crate `serialport`. -/
structure SerialPortSettings where
  baudRate : Nat
  deriving DecidableEq, Repr

structure SerialBuilder where
  name : String
  reconnectTimeout : Duration
  settings : SerialPortSettings
  deriving DecidableEq, Repr

def SerialBuilder.new (name : String) (settings : SerialPortSettings) : SerialBuilder :=
  ⟨name, fromSecs 30, settings⟩

structure SFBuilder (SocketAddr : Type) where
  addr : SocketAddr
  reconnectTimeout : Duration
  deriving DecidableEq, Repr

def SFBuilder.new {SocketAddr : Type} (addr : SocketAddr) : SFBuilder SocketAddr :=
  ⟨addr, fromSecs 30⟩

def unwrapGroup (group : Option (List Char)) : Outcome String :=
  match group with
  | some text => returned (String.ofList text)
  | none => panicked "called `Option::unwrap()` on a `None` value"

def unwrapPorts (ports : Except String (List String)) : Outcome (List String) :=
  match ports with
  | .ok ports => returned ports
  | .error error => panicked ("called `Result::unwrap()` on an `Err` value: " ++ error)

/-- `settings.baud_rate`, from the second group. -/
def baudRateOf (group : Option (List Char)) : Except String Nat :=
  match group with
  | some rate =>
      match parseU32 rate with
      | some baudRate => .ok baudRate
      | none => .error ("Invalid baud rate " ++ String.ofList rate ++ "!")
  | none => .ok 115200

def SerialBuilder.tryFrom (regex : RegexCrate) (availablePorts : Except String (List String))
    (name : String) : Outcome (Except String SerialBuilder) :=
  match regex.captures (serialRegex regex) name.toList with
  | some caps => do
      let portName ← unwrapGroup (textOf caps 1)
      match baudRateOf (textOf caps 2) with
      | .error message => return .error message
      | .ok baudRate =>
          if portName ∈ (← unwrapPorts availablePorts) then
            return .ok (SerialBuilder.new portName ⟨baudRate⟩)
          else return .error ("The serial port " ++ name ++ " was not found!")
  | none => returned (.error ("The serial port " ++ name ++ " was not found!"))

def SFBuilder.tryFrom {SocketAddr : Type}
    (toSocketAddrs : String → Except String (List SocketAddr)) (addr : String) :
    Except String (SFBuilder SocketAddr) :=
  let addr := if ':' ∈ addr.toList then addr else addr ++ ":9002"
  match toSocketAddrs addr with
  | .ok (addr :: _) => .ok (SFBuilder.new addr)
  | .ok [] => .error "Unable to resolve the address"
  | .error message => .error message

inductive TransportBuilder (SocketAddr : Type)
  | sf (builder : SFBuilder SocketAddr)
  | serial (builder : SerialBuilder)
  deriving DecidableEq, Repr

def deconstructing (message : String) : String :=
  "Error while deconstructing connection string: " ++ message

/-- `ConnectionBuilder::build_transport` -/
def buildTransport {SocketAddr : Type} (regex : RegexCrate)
    (availablePorts : Except String (List String))
    (toSocketAddrs : String → Except String (List SocketAddr)) (connectionString : String) :
    Outcome (Except String (TransportBuilder SocketAddr)) :=
  match regex.captures (connectionRegex regex) connectionString.toList with
  | some caps => do
      let protocol ← unwrapGroup (textOf caps 1)
      let address ← unwrapGroup (textOf caps 2)
      if protocol = "sf" then
        return ((SFBuilder.tryFrom toSocketAddrs address).map .sf).mapError deconstructing
      else if protocol = "serial" then
        return ((← SerialBuilder.tryFrom regex availablePorts address).map .serial).mapError
          deconstructing
      else return .error ("Unknown protocol: " ++ protocol)
  | none => returned (.error ("Malformed connection string: " ++ connectionString))

structure Address (regex : RegexCrate) (text name : List Char) (rate : Option (List Char)) :
    Prop where
  split : text = name ++ rate.getD []
  named : name ≠ []
  plain : ∀ symbol ∈ name, notColon symbol = true
  rated : ∀ part ∈ rate, ∃ value, part = ':' :: value ∧ value ≠ [] ∧
    ∀ digit ∈ value, regex.digitClass digit = true

def rateGroups (index : Nat) (rate : Option (List Char)) : Groups Char :=
  rate.toList.map fun part => (index, part)

section Expressions

variable {regex : RegexCrate} {text name otherName : List Char}
  {rate otherRate : Option (List Char)} {groups : Groups Char}

theorem parses_rate {index : Nat} :
    Parses (rateRegex regex index) text groups ↔
      ∃ rate : Option (List Char), text = rate.getD [] ∧ groups = rateGroups index rate ∧
        ∀ part ∈ rate, ∃ value, part = ':' :: value ∧ value ≠ [] ∧
          ∀ digit ∈ value, regex.digitClass digit = true := by
  rw [rateRegex, parses_opt, parses_group]
  constructor
  · intro parse
    rcases parse with ⟨inner, parse, grouped⟩ | ⟨empty, ungrouped⟩
    · obtain ⟨before, value, _, _, split, joined, colon, parse⟩ := parses_seq.mp parse
      obtain ⟨isColon, noGroup⟩ := parses_word.mp colon
      obtain ⟨nonempty, all, noOther⟩ := parses_many.mp parse
      refine ⟨some text, rfl, ?_, ?_⟩
      · rw [grouped, joined, noGroup, noOther]
        rfl
      · intro part same
        cases same
        refine ⟨value, ?_, nonempty, all⟩
        rw [split, isColon]
        rfl
    · exact ⟨none, empty, ungrouped, by intro part same; cases same⟩
  · intro ⟨rate, split, grouped, rated⟩
    cases rate with
    | none => exact .inr ⟨split, grouped⟩
    | some part =>
        obtain ⟨value, colon, nonempty, all⟩ := rated part rfl
        have whole : text = part := split
        left
        refine ⟨[], ?_, ?_⟩
        · rw [whole, colon]
          exact .seq (.word [':']) (.many nonempty all)
        · rw [grouped, whole]
          rfl

theorem Address.front (address : Address regex text name rate) :
    text.takeWhile notColon = name := by
  have ended : (rate.getD []).takeWhile notColon = [] := by
    cases rate with
    | none => rfl
    | some part =>
        obtain ⟨value, colon, _⟩ := address.rated part rfl
        rw [Option.getD_some, colon]
        rfl
  rw [address.split, List.takeWhile_append_of_pos address.plain, ended, List.append_nil]

theorem Address.rate_eq (address : Address regex text name rate) :
    rate = if rate.getD [] = [] then none else some (rate.getD []) := by
  cases rate with
  | none => rfl
  | some part =>
      obtain ⟨value, colon, _⟩ := address.rated part rfl
      have nonempty : part ≠ [] := by
        rw [colon]
        exact List.cons_ne_nil ':' value
      exact (if_neg nonempty).symm

theorem Address.unique (address : Address regex text name rate)
    (other : Address regex text otherName otherRate) :
    otherName = name ∧ otherRate = rate := by
  have sameName : otherName = name := other.front.symm.trans address.front
  have behind : otherRate.getD [] = rate.getD [] := by
    have split := other.split.symm.trans address.split
    rw [sameName] at split
    exact List.append_cancel_left split
  refine ⟨sameName, ?_⟩
  rw [other.rate_eq, behind, ← address.rate_eq]

theorem parses_serial :
    Parses (serialRegex regex) text groups ↔
      ∃ name rate, Address regex text name rate ∧ groups = (1, name) :: rateGroups 2 rate := by
  rw [serialRegex, parses_seq]
  constructor
  · intro ⟨name, after, nameGroups, afterGroups, split, joined, nameParse, rateParse⟩
    obtain ⟨inner, many, grouped⟩ := parses_group.mp nameParse
    obtain ⟨named, plain, noGroup⟩ := parses_many.mp many
    obtain ⟨rate, behind, rateGrouped, rated⟩ := parses_rate.mp rateParse
    rw [behind] at split
    refine ⟨name, rate, ⟨split, named, plain, rated⟩, ?_⟩
    rw [joined, grouped, noGroup, rateGrouped]
    rfl
  · intro ⟨name, rate, address, grouped⟩
    refine ⟨name, _, _, _, address.split, ?_, .group (.many address.named address.plain),
      parses_rate.mpr ⟨rate, rfl, rfl, address.rated⟩⟩
    exact grouped

theorem captures_serial (address : Address regex text name rate) :
    regex.captures (serialRegex regex) text = some ((1, name) :: rateGroups 2 rate) := by
  apply regex.captures_of_unique (parses_serial.mpr ⟨name, rate, address, rfl⟩)
  intro others parse
  obtain ⟨otherName, otherRate, other, grouped⟩ := parses_serial.mp parse
  obtain ⟨sameName, sameRate⟩ := address.unique other
  rw [grouped, sameName, sameRate]

theorem parses_connection :
    Parses (connectionRegex regex) text groups ↔
      ∃ protocol address name rate, (protocol = "sf".toList ∨ protocol = "serial".toList) ∧
        text = protocol ++ '@' :: address ∧ Address regex address name rate ∧
        groups = (1, protocol) :: (rateGroups 3 rate ++ [(2, address)]) := by
  have protocols {protocol : List Char} {groups : Groups Char} :
      Parses (.alt (.word "sf".toList) (.word "serial".toList)) protocol groups ↔
        (protocol = "sf".toList ∨ protocol = "serial".toList) ∧ groups = [] := by
    rw [parses_alt, parses_word, parses_word, or_and_right]
  rw [connectionRegex, parses_seq]
  constructor
  · intro ⟨protocol, after, _, _, split, joined, first, second⟩
    obtain ⟨_, known, firstGrouped⟩ := parses_group.mp first
    obtain ⟨isProtocol, noGroup⟩ := protocols.mp known
    obtain ⟨sign, address, _, _, afterSplit, afterJoined, isSign, third⟩ := parses_seq.mp second
    obtain ⟨isAt, noSignGroup⟩ := parses_word.mp isSign
    obtain ⟨_, addressParse, addressGrouped⟩ := parses_group.mp third
    obtain ⟨name, behind, _, _, addressSplit, addressJoined, many, rateParse⟩ :=
      parses_seq.mp addressParse
    obtain ⟨named, plain, noNameGroup⟩ := parses_many.mp many
    obtain ⟨rate, isRate, rateGrouped, rated⟩ := parses_rate.mp rateParse
    rw [isRate] at addressSplit
    refine ⟨protocol, address, name, rate, isProtocol, ?_, ⟨addressSplit, named, plain, rated⟩, ?_⟩
    · rw [split, afterSplit, isAt]
      rfl
    · rw [joined, firstGrouped, noGroup, afterJoined, noSignGroup, addressGrouped, addressJoined,
        noNameGroup, rateGrouped]
      rfl
  · intro ⟨protocol, address, name, rate, isProtocol, split, parts, grouped⟩
    have addressParse : Parses (.seq (.many notColon) (rateRegex regex 3)) address
        ([] ++ rateGroups 3 rate) := by
      rw [parts.split]
      exact .seq (.many parts.named parts.plain) (parses_rate.mpr ⟨rate, rfl, rfl, parts.rated⟩)
    refine ⟨protocol, '@' :: address, [] ++ [(1, protocol)], _, split, ?_,
      .group (protocols.mpr ⟨isProtocol, rfl⟩), .seq (.word ['@']) (.group addressParse)⟩
    exact grouped

theorem protocol_unique {protocol otherProtocol address otherAddress : List Char}
    (known : protocol = "sf".toList ∨ protocol = "serial".toList)
    (otherKnown : otherProtocol = "sf".toList ∨ otherProtocol = "serial".toList)
    (same : protocol ++ '@' :: address = otherProtocol ++ '@' :: otherAddress) :
    protocol = otherProtocol ∧ address = otherAddress := by
  have front {protocol : List Char} (known : protocol = "sf".toList ∨ protocol = "serial".toList)
      (address : List Char) : (protocol ++ '@' :: address).takeWhile (· != '@') = protocol := by
    rcases known with sf | serial
    · rw [sf]
      rfl
    · rw [serial]
      rfl
  have sameProtocol : protocol = otherProtocol := by
    rw [← front known address, same, front otherKnown]
  rw [sameProtocol] at same
  exact ⟨sameProtocol, (List.cons.inj (List.append_cancel_left same)).2⟩

theorem captures_connection {protocol address : List Char}
    (known : protocol = "sf".toList ∨ protocol = "serial".toList)
    (parts : Address regex address name rate) :
    regex.captures (connectionRegex regex) (protocol ++ '@' :: address) =
      some ((1, protocol) :: (rateGroups 3 rate ++ [(2, address)])) := by
  apply regex.captures_of_unique
    (parses_connection.mpr ⟨protocol, address, name, rate, known, rfl, parts, rfl⟩)
  intro others parse
  obtain ⟨otherProtocol, otherAddress, otherName, otherRate, otherKnown, split, other, grouped⟩ :=
    parses_connection.mp parse
  obtain ⟨sameProtocol, sameAddress⟩ := protocol_unique known otherKnown split
  rw [← sameAddress] at other
  obtain ⟨_, sameRate⟩ := parts.unique other
  rw [grouped, ← sameProtocol, ← sameAddress, sameRate]

theorem text_of_rate_groups {index : Nat} (rate : Option (List Char)) :
    textOf (rateGroups index rate) index = rate := by
  cases rate with
  | none => rfl
  | some part => simp [textOf, rateGroups]

theorem text_of_behind {index other : Nat} (different : other ≠ index) (part : List Char)
    (groups : Groups Char) : textOf ((other, part) :: groups) index = textOf groups index := by
  rw [textOf, List.find?_cons_of_neg (by simpa using different), ← textOf]

theorem text_of_address (protocol address : List Char) (rate : Option (List Char)) :
    textOf ((1, protocol) :: (rateGroups 3 rate ++ [(2, address)])) 1 = some protocol ∧
    textOf ((1, protocol) :: (rateGroups 3 rate ++ [(2, address)])) 2 = some address ∧
    textOf ((1, protocol) :: (rateGroups 3 rate ++ [(2, address)])) 3 = rate := by
  cases rate with
  | none => exact ⟨rfl, rfl, rfl⟩
  | some part => exact ⟨rfl, rfl, rfl⟩

theorem serial_try_from {address : String} (parts : Address regex address.toList name rate)
    (availablePorts : Except String (List String)) :
    SerialBuilder.tryFrom regex availablePorts address =
      match baudRateOf rate with
      | .error message => returned (.error message)
      | .ok baudRate => do
          if String.ofList name ∈ (← unwrapPorts availablePorts) then
            return .ok (SerialBuilder.new (String.ofList name) ⟨baudRate⟩)
          else return .error ("The serial port " ++ address ++ " was not found!") := by
  have groupOne : textOf ((1, name) :: rateGroups 2 rate) 1 = some name := rfl
  have groupTwo : textOf ((1, name) :: rateGroups 2 rate) 2 = rate := by
    rw [text_of_behind (by decide), text_of_rate_groups]
  rw [SerialBuilder.tryFrom, captures_serial parts]
  simp only [groupOne, groupTwo, unwrapGroup, returned_bind]
  rfl

theorem build_transport_serial {SocketAddr : Type} {address : String}
    (parts : Address regex address.toList name rate)
    (availablePorts : Except String (List String))
    (toSocketAddrs : String → Except String (List SocketAddr)) :
    buildTransport regex availablePorts toSocketAddrs ("serial@" ++ address) = do
      let built ← SerialBuilder.tryFrom regex availablePorts address
      return (built.map .serial).mapError deconstructing := by
  have text : ("serial@" ++ address).toList = "serial".toList ++ '@' :: address.toList := by
    rw [String.toList_append]
    rfl
  obtain ⟨groupOne, groupTwo, _⟩ := text_of_address "serial".toList address.toList rate
  rw [buildTransport, text, captures_connection (.inr rfl) parts]
  simp only [groupOne, groupTwo, unwrapGroup, returned_bind, String.ofList_toList, if_true]
  rw [if_neg (by decide)]

end Expressions

theorem parse_u32_colon (value : List Char) : parseU32 (':' :: value) = none := rfl

def decimal (text : List Char) : Nat :=
  text.foldl (fun value digit => 10 * value + digitValue digit) 0

example : parseU32 ['+', '9', '6', '0', '0'] = some 9600 := by decide

/-- Both expressions find the same name and the same rate in every string that the first accepts. -/
def SplitAlike (regex : RegexCrate) : Prop :=
  ∀ text outer, regex.captures (connectionRegex regex) text = some outer →
    ∃ address name inner, textOf outer 2 = some address ∧
      address = name ++ (textOf outer 3).getD [] ∧
      regex.captures (serialRegex regex) address = some inner ∧
      textOf inner 1 = some name ∧ textOf inner 2 = textOf outer 3

section Building

variable {SocketAddr : Type} (regex : RegexCrate) (ports : List String)
  (toSocketAddrs : String → Except String (List SocketAddr)) (name : String)

/-- Without a rate, the default; with one, that rate, if it is one. -/
structure CarriesRate (rate : String) : Prop where
  bare : buildTransport regex (.ok ports) toSocketAddrs ("serial@" ++ name) =
    returned (.ok (.serial (SerialBuilder.new name ⟨115200⟩)))
  fits : decimal rate.toList ≤ u32Max →
    buildTransport regex (.ok ports) toSocketAddrs ("serial@" ++ name ++ ":" ++ rate) =
      returned (.ok (.serial (SerialBuilder.new name ⟨decimal rate.toList⟩)))
  tooLarge : u32Max < decimal rate.toList → ∃ message,
    buildTransport regex (.ok ports) toSocketAddrs ("serial@" ++ name ++ ":" ++ rate) =
      returned (.error message)
  alike : SplitAlike regex

variable {name}

theorem address_of_name (named : name ≠ "") (plain : ':' ∉ name.toList) (rate : Option (List Char))
    (rated : ∀ part ∈ rate, ∃ value, part = ':' :: value ∧ value ≠ [] ∧
      ∀ digit ∈ value, regex.digitClass digit = true) :
    Address regex (name.toList ++ rate.getD []) name.toList rate where
  split := rfl
  named := by
    intro empty
    exact named (String.toList_eq_nil_iff.mp empty)
  plain := by
    intro symbol member
    rw [notColon, bne_iff_ne]
    intro colon
    rw [colon] at member
    exact plain member
  rated := rated

theorem build_bare (named : name ≠ "") (plain : ':' ∉ name.toList) (listed : name ∈ ports) :
    buildTransport regex (.ok ports) toSocketAddrs ("serial@" ++ name) =
      returned (.ok (.serial (SerialBuilder.new name ⟨115200⟩))) := by
  have parts := address_of_name regex named plain none (by intro part same; cases same)
  rw [Option.getD_none, List.append_nil] at parts
  rw [build_transport_serial parts, serial_try_from parts]
  simp only [baudRateOf, unwrapPorts, returned_bind, String.ofList_toList, if_pos listed, pure_eq]
  rfl

theorem address_of_rate (named : name ≠ "") (plain : ':' ∉ name.toList) {rate : String}
    (nonempty : rate ≠ "") (ascii : ∀ digit ∈ rate.toList, digit.isDigit = true) :
    Address regex (name ++ ":" ++ rate).toList name.toList (some (':' :: rate.toList)) := by
  have text : (name ++ ":" ++ rate).toList =
      name.toList ++ (some (':' :: rate.toList)).getD [] := by
    rw [String.toList_append, String.toList_append, List.append_assoc]
    rfl
  have some_digit : rate.toList ≠ [] := by
    intro empty
    exact nonempty (String.toList_eq_nil_iff.mp empty)
  rw [text]
  apply address_of_name regex named plain
  intro part same
  cases same
  exact ⟨rate.toList, rfl, some_digit, fun digit member => regex.ascii digit (ascii digit member)⟩

/-- The colon in the group of the rate makes every rate invalid. -/
theorem build_rated (named : name ≠ "") (plain : ':' ∉ name.toList) {rate : String}
    (nonempty : rate ≠ "") (ascii : ∀ digit ∈ rate.toList, digit.isDigit = true) :
    buildTransport regex (.ok ports) toSocketAddrs ("serial@" ++ name ++ ":" ++ rate) =
      returned (.error (deconstructing ("Invalid baud rate " ++ (":" ++ rate) ++ "!"))) := by
  have parts := address_of_rate regex named plain nonempty ascii
  have shown : String.ofList (':' :: rate.toList) = ":" ++ rate := by
    rw [← String.toList_inj, String.toList_ofList, String.toList_append]
    rfl
  have joined : "serial@" ++ name ++ ":" ++ rate = "serial@" ++ (name ++ ":" ++ rate) := by
    rw [String.append_assoc, String.append_assoc, String.append_assoc]
  rw [joined, build_transport_serial parts, serial_try_from parts]
  simp only [baudRateOf, parse_u32_colon, returned_bind, pure_eq, shown]
  rfl

theorem split_alike : SplitAlike regex := by
  intro text outer captured
  obtain ⟨protocol, address, name, rate, _, _, parts, grouped⟩ :=
    parses_connection.mp (regex.sound captured)
  obtain ⟨_, groupTwo, groupThree⟩ := text_of_address protocol address rate
  rw [grouped, groupTwo, groupThree]
  refine ⟨address, name, (1, name) :: rateGroups 2 rate, rfl, parts.split, captures_serial parts,
    rfl, ?_⟩
  rw [text_of_behind (by decide), text_of_rate_groups]

/-- Only a rate that is too large is treated as it should be. -/
theorem rate_carried_iff (named : name ≠ "") (plain : ':' ∉ name.toList) (listed : name ∈ ports)
    (rate : String) (nonempty : rate ≠ "")
    (ascii : ∀ digit ∈ rate.toList, digit.isDigit = true) :
    CarriesRate regex ports toSocketAddrs name rate ↔ u32Max < decimal rate.toList := by
  have refused := build_rated regex ports toSocketAddrs named plain nonempty ascii
  constructor
  · intro carried
    apply lt_of_not_ge
    intro fits
    have accepted := (carried.fits fits).symm.trans refused
    cases accepted
  · intro tooLarge
    exact
      { bare := build_bare regex ports toSocketAddrs named plain listed
        fits := fun fits => absurd tooLarge (not_lt_of_ge fits)
        tooLarge := fun _ => ⟨_, refused⟩
        alike := split_alike regex }

end Building

def noSuchHost (_ : String) : Except String (List String) := .error "no such host"

theorem huge_rate_carried :
    CarriesRate asciiBacktracking ["COM3"] noSuchHost "COM3" "4294967296" ↔
      u32Max < decimal "4294967296".toList :=
  rate_carried_iff asciiBacktracking ["COM3"] noSuchHost (by decide) (by decide) (by decide)
    "4294967296" (by decide) (List.all_eq_true.mp (by decide))

/-- A listed port with a common rate. -/
theorem common_rate_refused :
    ¬ CarriesRate asciiBacktracking ["/dev/ttyUSB0"] noSuchHost "/dev/ttyUSB0" "9600" := by
  intro carried
  have fits : decimal "9600".toList ≤ u32Max := by decide
  have accepted : "/dev/ttyUSB0" ≠ "" ∧ ':' ∉ "/dev/ttyUSB0".toList := by decide
  have refused := build_rated asciiBacktracking ["/dev/ttyUSB0"] noSuchHost accepted.1 accepted.2
    (by decide : "9600" ≠ "") (List.all_eq_true.mp (by decide))
  have same := (carried.fits fits).symm.trans refused
  cases same

end MoteConnection.ConnectionStrings
