import MoteConnection.ConnectionStrings
import MoteConnection.ConnectionWorkers

/-!
# Which connection strings are accepted

Every string is the description of a serial-forwarder server or of a serial
port, or it is malformed. The validator of `amlistener` repeats the expressions
and the branches of `ConnectionBuilder::build_transport`, so that the two can
be compared on every string. The system answers the questions of both alike.
-/

namespace MoteConnection.ConnectionValidation

open Patterns
open MoteConnection.Runtime MoteConnection.ConnectionStrings MoteConnection.ConnectionWorkers
open Outcome

set_option autoImplicit false

variable {SocketAddr : Type}

def validateConnectionString (regex : RegexCrate) (availablePorts : Except String (List String))
    (toSocketAddrs : String → Except String (List SocketAddr)) (value : String) :
    Outcome (Except String Unit) :=
  match regex.captures (connectionRegex regex) value.toList with
  | some caps => do
      let protocol ← unwrapGroup (textOf caps 1)
      if protocol = "sf" then
        let addr ← unwrapGroup (textOf caps 2)
        let addr := if ':' ∈ addr.toList then addr else addr ++ ":9002"
        match toSocketAddrs addr with
        | .error _ => return .error (addr ++ " is not a valid network address!")
        | .ok _ => return .ok ()
      else if protocol = "serial" then
        let name ← unwrapGroup (textOf caps 2)
        match regex.captures (serialRegex regex) name.toList with
        | some caps =>
            let portName ← unwrapGroup (textOf caps 1)
            match baudRateOf (textOf caps 2) with
            | .error message => return .error message
            | .ok _ =>
                if portName ∈ (← unwrapPorts availablePorts) then return .ok ()
                else return .error ("The serial port " ++ name ++ " was not found!")
        | none => return .error ("The serial port " ++ name ++ " was not found!")
      else return .error ("Unknown protocol: " ++ protocol)
  | none => returned (.error ("Malformed connection string: " ++ value))

def TransportBuilder.setReconnectTimeout (timeout : Duration) :
    TransportBuilder SocketAddr → TransportBuilder SocketAddr
  | .sf builder => .sf { builder with reconnectTimeout := timeout }
  | .serial builder => .serial { builder with reconnectTimeout := timeout }

structure ConnectionBuilder (SocketAddr : Type) where
  dispatchers : HashMap UInt8 (DispatcherHandle UInt8)
  transport : TransportBuilder SocketAddr

namespace ConnectionBuilder

def withTransport (transport : TransportBuilder SocketAddr) : ConnectionBuilder SocketAddr :=
  ⟨∅, transport⟩

def withConnectionString (regex : RegexCrate) (availablePorts : Except String (List String))
    (toSocketAddrs : String → Except String (List SocketAddr)) (connectionString : String) :
    Outcome (Except String (ConnectionBuilder SocketAddr)) := do
  let transport ← buildTransport regex availablePorts toSocketAddrs connectionString
  return transport.map withTransport

def reconnectTimeout (builder : ConnectionBuilder SocketAddr) (timeout : Duration) :
    ConnectionBuilder SocketAddr :=
  { builder with transport := TransportBuilder.setReconnectTimeout timeout builder.transport }

end ConnectionBuilder

/-- The start of the listener's `main`, before it registers its dispatcher. A string that the
validator refuses ends the program with a message. -/
def connect (regex : RegexCrate) (availablePorts : Except String (List String))
    (toSocketAddrs : String → Except String (List SocketAddr)) (value : String) :
    Outcome (Option (ConnectionBuilder SocketAddr)) := do
  match ← validateConnectionString regex availablePorts toSocketAddrs value with
  | .error _ => return none
  | .ok _ =>
      match ← ConnectionBuilder.withConnectionString regex availablePorts toSocketAddrs value with
      | .ok builder => return some (builder.reconnectTimeout (fromSecs 10))
      | .error message =>
          panicked ("called `Result::unwrap()` on an `Err` value: " ++ message)

def withPort (host : String) : String := if ':' ∈ host.toList then host else host ++ ":9002"

/-- `[^:]+(:\d+)?` -/
def IsAddress (regex : RegexCrate) (address : String) : Prop :=
  ∃ name rate, Address regex address.toList name rate

section Forms

variable {regex : RegexCrate} {availablePorts : Except String (List String)}
  {toSocketAddrs : String → Except String (List SocketAddr)} {value address : String}

theorem connection_cases (regex : RegexCrate) (value : String) :
    (∃ host, IsAddress regex host ∧ value = "sf@" ++ host) ∨
      (∃ address, IsAddress regex address ∧ value = "serial@" ++ address) ∨
      regex.captures (connectionRegex regex) value.toList = none := by
  cases captured : regex.captures (connectionRegex regex) value.toList with
  | none => exact .inr (.inr rfl)
  | some groups =>
      obtain ⟨protocol, address, name, rate, known, split, parts, _⟩ :=
        parses_connection.mp (regex.sound captured)
      have isAddress : IsAddress regex (String.ofList address) :=
        ⟨name, rate, by rw [String.toList_ofList]; exact parts⟩
      have text (front : String) (same : protocol ++ ['@'] = front.toList) :
          value = front ++ String.ofList address := by
        rw [← String.toList_inj, String.toList_append, String.toList_ofList, ← same, split,
          List.append_assoc]
        rfl
      rcases known with sf | serial
      · exact .inl ⟨String.ofList address, isAddress, text "sf@" (by rw [sf]; rfl)⟩
      · exact .inr (.inl ⟨String.ofList address, isAddress, text "serial@" (by rw [serial]; rfl)⟩)

theorem build_transport_sf (isAddress : IsAddress regex address) :
    buildTransport regex availablePorts toSocketAddrs ("sf@" ++ address) =
      returned (((SFBuilder.tryFrom toSocketAddrs address).map .sf).mapError deconstructing) := by
  obtain ⟨name, rate, parts⟩ := isAddress
  have text : ("sf@" ++ address).toList = "sf".toList ++ '@' :: address.toList := by
    rw [String.toList_append]
    rfl
  obtain ⟨groupOne, groupTwo, _⟩ := text_of_address "sf".toList address.toList rate
  rw [buildTransport, text, captures_connection (.inl rfl) parts]
  simp only [groupOne, groupTwo, unwrapGroup, returned_bind, String.ofList_toList, if_true,
    pure_eq]

theorem validate_sf (isAddress : IsAddress regex address) :
    validateConnectionString regex availablePorts toSocketAddrs ("sf@" ++ address) =
      match toSocketAddrs (withPort address) with
      | .error _ => returned (.error (withPort address ++ " is not a valid network address!"))
      | .ok _ => returned (.ok ()) := by
  obtain ⟨name, rate, parts⟩ := isAddress
  have text : ("sf@" ++ address).toList = "sf".toList ++ '@' :: address.toList := by
    rw [String.toList_append]
    rfl
  obtain ⟨groupOne, groupTwo, _⟩ := text_of_address "sf".toList address.toList rate
  rw [validateConnectionString, text, captures_connection (.inl rfl) parts]
  simp only [groupOne, groupTwo, unwrapGroup, returned_bind, String.ofList_toList, if_true,
    pure_eq]
  rfl

theorem validate_serial (isAddress : IsAddress regex address) :
    validateConnectionString regex availablePorts toSocketAddrs ("serial@" ++ address) = do
      let built ← SerialBuilder.tryFrom regex availablePorts address
      return built.map fun _ => () := by
  obtain ⟨name, rate, parts⟩ := isAddress
  have text : ("serial@" ++ address).toList = "serial".toList ++ '@' :: address.toList := by
    rw [String.toList_append]
    rfl
  obtain ⟨groupOne, groupTwo, _⟩ := text_of_address "serial".toList address.toList rate
  have portName : Patterns.textOf ((1, name) :: rateGroups 2 rate) 1 = some name := rfl
  have rateGroup : Patterns.textOf ((1, name) :: rateGroups 2 rate) 2 = rate := by
    rw [text_of_behind (by decide), text_of_rate_groups]
  rw [validateConnectionString, text, captures_connection (.inr rfl) parts, serial_try_from parts]
  simp only [groupOne, groupTwo, unwrapGroup, returned_bind, String.ofList_toList]
  rw [if_neg (by decide), if_pos trivial, captures_serial parts]
  simp only [portName, rateGroup, returned_bind]
  cases baudRateOf rate with
  | error message => rfl
  | ok baudRate =>
      cases availablePorts with
      | error message => rfl
      | ok ports =>
          simp only [unwrapPorts, returned_bind]
          split_ifs <;> rfl

def Bare (address : String) : Prop := address ≠ "" ∧ ':' ∉ address.toList

theorem Bare.isAddress (bare : Bare address) : IsAddress regex address := by
  have parts := address_of_name regex bare.1 bare.2 none (by intro part same; cases same)
  rw [Option.getD_none, List.append_nil] at parts
  exact ⟨_, none, parts⟩

/-- An address has a rate, which is refused, or the system is asked for its name. -/
theorem serial_cases (isAddress : IsAddress regex address) :
    (Bare address ∧ SerialBuilder.tryFrom regex availablePorts address = do
      if address ∈ (← unwrapPorts availablePorts) then
        return .ok (SerialBuilder.new address ⟨115200⟩)
      else return .error ("The serial port " ++ address ++ " was not found!")) ∨
    (¬ Bare address ∧ ∃ message,
      SerialBuilder.tryFrom regex availablePorts address = returned (.error message)) := by
  obtain ⟨name, rate, parts⟩ := isAddress
  cases rate with
  | none =>
      left
      have whole : address.toList = name := by
        rw [parts.split]
        exact List.append_nil name
      have bare : Bare address := by
        constructor
        · intro empty
          rw [empty] at whole
          exact parts.named whole.symm
        · intro colon
          rw [whole] at colon
          exact absurd (parts.plain _ colon) (by decide)
      refine ⟨bare, ?_⟩
      rw [serial_try_from parts, ← whole, String.ofList_toList]
      rfl
  | some part =>
      right
      obtain ⟨value, colon, _⟩ := parts.rated part rfl
      refine ⟨?_, "Invalid baud rate " ++ String.ofList part ++ "!", ?_⟩
      · intro bare
        apply bare.2
        rw [parts.split, Option.getD_some, colon]
        exact List.mem_append_right _ List.mem_cons_self
      · rw [serial_try_from parts, baudRateOf, colon, parse_u32_colon]

theorem serial_ok_iff (isAddress : IsAddress regex address) {builder : SerialBuilder} :
    SerialBuilder.tryFrom regex availablePorts address = returned (.ok builder) ↔
      Bare address ∧ ∃ ports, availablePorts = .ok ports ∧ address ∈ ports ∧
        builder = SerialBuilder.new address ⟨115200⟩ := by
  rcases @serial_cases regex availablePorts address isAddress with ⟨bare, turn⟩ | ⟨rated, _, turn⟩
  · rw [turn, and_iff_right bare]
    cases availablePorts with
    | error message => simp [unwrapPorts]
    | ok ports =>
        by_cases listed : address ∈ ports
        · simp [unwrapPorts, listed, eq_comm]
        · simp [unwrapPorts, listed]
  · rw [turn]
    simp [rated]

theorem serial_panics_iff (isAddress : IsAddress regex address) :
    (∃ message, SerialBuilder.tryFrom regex availablePorts address = panicked message) ↔
      Bare address ∧ ∃ message, availablePorts = .error message := by
  rcases @serial_cases regex availablePorts address isAddress with ⟨bare, turn⟩ | ⟨rated, _, turn⟩
  · rw [turn, and_iff_right bare]
    cases availablePorts with
    | error message => simp [unwrapPorts]
    | ok ports =>
        by_cases listed : address ∈ ports
        · simp [unwrapPorts, listed]
        · simp [unwrapPorts, listed]
  · rw [turn]
    simp [rated]

end Forms

section Accepted

variable (regex : RegexCrate) (availablePorts : Except String (List String))
  (toSocketAddrs : String → Except String (List SocketAddr)) (value : String)

/-- The string names a server, of which the first address is taken, or a port that the system lists,
without a rate. -/
def Describes (builder : TransportBuilder SocketAddr) : Prop :=
  (∃ host addr rest, IsAddress regex host ∧ value = "sf@" ++ host ∧
    toSocketAddrs (withPort host) = .ok (addr :: rest) ∧ builder = .sf (SFBuilder.new addr)) ∨
  (∃ name ports, Bare name ∧ value = "serial@" ++ name ∧ availablePorts = .ok ports ∧
    name ∈ ports ∧ builder = .serial (SerialBuilder.new name ⟨115200⟩))

def ResolvesToNothing : Prop :=
  ∃ host, IsAddress regex host ∧ value = "sf@" ++ host ∧ toSocketAddrs (withPort host) = .ok []

def AsksInVain : Prop :=
  ∃ name message, Bare name ∧ value = "serial@" ++ name ∧ availablePorts = .error message

variable {regex availablePorts toSocketAddrs value} {address : String}

theorem protocols_differ (host address : String) : "sf@" ++ host ≠ "serial@" ++ address := by
  intro same
  have second := congrArg (fun text : String => text.toList[1]?) same
  simp [String.toList_append] at second

theorem front_cancels {front host address : String} (same : front ++ host = front ++ address) :
    host = address := by
  have texts := congrArg String.toList same
  rw [String.toList_append, String.toList_append] at texts
  exact String.toList_inj.mp (List.append_cancel_left texts)

theorem captured_of_address (isAddress : IsAddress regex address) {protocol : List Char}
    (known : protocol = "sf".toList ∨ protocol = "serial".toList) {front : String}
    (same : front.toList = protocol ++ ['@']) :
    regex.captures (connectionRegex regex) (front ++ address).toList ≠ none := by
  obtain ⟨name, rate, parts⟩ := isAddress
  have text : (front ++ address).toList = protocol ++ '@' :: address.toList := by
    rw [String.toList_append, same, List.append_assoc]
    rfl
  rw [text, captures_connection known parts]
  exact Option.some_ne_none _

theorem describes_sf (isAddress : IsAddress regex address)
    {builder : TransportBuilder SocketAddr} :
    Describes regex availablePorts toSocketAddrs ("sf@" ++ address) builder ↔
      ∃ addr rest, toSocketAddrs (withPort address) = .ok (addr :: rest) ∧
        builder = .sf (SFBuilder.new addr) := by
  constructor
  · rintro (⟨host, addr, rest, _, same, resolved, built⟩ | ⟨name, ports, _, same, _⟩)
    · rw [front_cancels same]
      exact ⟨addr, rest, resolved, built⟩
    · exact absurd same (protocols_differ address name)
  · rintro ⟨addr, rest, resolved, built⟩
    exact .inl ⟨address, addr, rest, isAddress, rfl, resolved, built⟩

theorem describes_serial {builder : TransportBuilder SocketAddr} :
    Describes regex availablePorts toSocketAddrs ("serial@" ++ address) builder ↔
      Bare address ∧ ∃ ports, availablePorts = .ok ports ∧ address ∈ ports ∧
        builder = .serial (SerialBuilder.new address ⟨115200⟩) := by
  constructor
  · rintro (⟨host, _, _, _, same, _⟩ | ⟨name, ports, bare, same, listed, member, built⟩)
    · exact absurd same.symm (protocols_differ host address)
    · rw [front_cancels same]
      exact ⟨bare, ports, listed, member, built⟩
  · rintro ⟨bare, ports, listed, member, built⟩
    exact .inr ⟨address, ports, bare, rfl, listed, member, built⟩

theorem resolves_sf (isAddress : IsAddress regex address) :
    ResolvesToNothing regex toSocketAddrs ("sf@" ++ address) ↔
      toSocketAddrs (withPort address) = .ok [] := by
  constructor
  · rintro ⟨host, _, same, nothing⟩
    rw [front_cancels same]
    exact nothing
  · exact fun nothing => ⟨address, isAddress, rfl, nothing⟩

theorem not_resolves_serial :
    ¬ ResolvesToNothing regex toSocketAddrs ("serial@" ++ address) := by
  rintro ⟨host, _, same, _⟩
  exact protocols_differ host address same.symm

theorem not_asks_sf : ¬ AsksInVain availablePorts ("sf@" ++ address) := by
  rintro ⟨name, _, _, same, _⟩
  exact protocols_differ address name same

theorem asks_serial :
    AsksInVain availablePorts ("serial@" ++ address) ↔
      Bare address ∧ ∃ message, availablePorts = .error message := by
  constructor
  · rintro ⟨name, message, bare, same, failed⟩
    rw [front_cancels same]
    exact ⟨bare, message, failed⟩
  · rintro ⟨bare, message, failed⟩
    exact ⟨address, message, bare, rfl, failed⟩

section Malformed

variable (malformed : regex.captures (connectionRegex regex) value.toList = none)

include malformed

theorem not_describes {builder : TransportBuilder SocketAddr} :
    ¬ Describes regex availablePorts toSocketAddrs value builder := by
  rintro (⟨host, _, _, isAddress, rfl, _⟩ | ⟨name, _, bare, rfl, _⟩)
  · exact captured_of_address isAddress (.inl rfl) rfl malformed
  · exact captured_of_address bare.isAddress (.inr rfl) rfl malformed

theorem not_resolves : ¬ ResolvesToNothing regex toSocketAddrs value := by
  rintro ⟨host, isAddress, rfl, _⟩
  exact captured_of_address isAddress (.inl rfl) rfl malformed

theorem not_asks : ¬ AsksInVain availablePorts value := by
  rintro ⟨name, _, bare, rfl, _⟩
  exact @captured_of_address regex name bare.isAddress _ (.inr rfl) _ rfl malformed

end Malformed

structure BuiltAs (regex : RegexCrate) (availablePorts : Except String (List String))
    (toSocketAddrs : String → Except String (List SocketAddr)) (value : String) : Prop where
  builds : ∀ builder, buildTransport regex availablePorts toSocketAddrs value =
    returned (.ok builder) ↔ Describes regex availablePorts toSocketAddrs value builder
  panics : (∃ message, buildTransport regex availablePorts toSocketAddrs value =
    panicked message) ↔ AsksInVain availablePorts value

structure ValidatedAs (regex : RegexCrate) (availablePorts : Except String (List String))
    (toSocketAddrs : String → Except String (List SocketAddr)) (value : String) : Prop where
  accepts : validateConnectionString regex availablePorts toSocketAddrs value =
    returned (.ok ()) ↔
      (∃ builder, Describes regex availablePorts toSocketAddrs value builder) ∨
        ResolvesToNothing regex toSocketAddrs value
  panics : (∃ message, validateConnectionString regex availablePorts toSocketAddrs value =
    panicked message) ↔ AsksInVain availablePorts value

theorem built_as_sf (isAddress : IsAddress regex address) :
    BuiltAs regex availablePorts toSocketAddrs ("sf@" ++ address) where
  builds := by
    intro builder
    rw [build_transport_sf isAddress, describes_sf isAddress]
    have port : (if ':' ∈ address.toList then address else address ++ ":9002") =
        withPort address := rfl
    simp only [SFBuilder.tryFrom, port]
    cases toSocketAddrs (withPort address) with
    | error message => simp [Except.map, Except.mapError]
    | ok addrs =>
        cases addrs with
        | nil => simp [Except.map, Except.mapError]
        | cons addr rest => simp [Except.map, Except.mapError, eq_comm]
  panics := by
    rw [build_transport_sf isAddress]
    exact iff_of_false (by rintro ⟨message, same⟩; cases same) not_asks_sf

theorem validated_as_sf (isAddress : IsAddress regex address) :
    ValidatedAs regex availablePorts toSocketAddrs ("sf@" ++ address) where
  accepts := by
    simp only [validate_sf isAddress, describes_sf isAddress, resolves_sf isAddress]
    cases toSocketAddrs (withPort address) with
    | error message => simp
    | ok addrs => cases addrs <;> simp
  panics := by
    rw [validate_sf isAddress]
    refine iff_of_false ?_ not_asks_sf
    rintro ⟨message, same⟩
    cases resolved : toSocketAddrs (withPort address) with
    | error message => simp [resolved] at same
    | ok addrs => simp [resolved] at same

theorem built_as_serial (isAddress : IsAddress regex address) :
    BuiltAs regex availablePorts toSocketAddrs ("serial@" ++ address) where
  builds := by
    intro builder
    obtain ⟨name, rate, parts⟩ := id isAddress
    rw [build_transport_serial parts, describes_serial]
    have accepted := @serial_ok_iff regex availablePorts address isAddress
    constructor
    · intro built
      obtain ⟨result, returns, mapped⟩ := bind_eq_returned.mp built
      cases result with
      | error message => cases mapped
      | ok serial =>
          cases mapped
          obtain ⟨bare, ports, listed, member, same⟩ := accepted.mp returns
          exact ⟨bare, ports, listed, member, congrArg TransportBuilder.serial same⟩
    · rintro ⟨bare, ports, listed, member, rfl⟩
      rw [accepted.mpr ⟨bare, ports, listed, member, rfl⟩]
      rfl
  panics := by
    obtain ⟨name, rate, parts⟩ := id isAddress
    rw [build_transport_serial parts, asks_serial, ← serial_panics_iff isAddress]
    cases SerialBuilder.tryFrom regex availablePorts address with
    | panicked message => simp
    | returned built => simp

theorem validated_as_serial (isAddress : IsAddress regex address) :
    ValidatedAs regex availablePorts toSocketAddrs ("serial@" ++ address) where
  accepts := by
    rw [validate_serial isAddress]
    simp only [describes_serial, not_resolves_serial, or_false]
    have accepted := @serial_ok_iff regex availablePorts address isAddress
    constructor
    · intro validated
      obtain ⟨result, returns, mapped⟩ := bind_eq_returned.mp validated
      cases result with
      | error message => cases mapped
      | ok serial =>
          obtain ⟨bare, ports, listed, member, _⟩ := accepted.mp returns
          exact ⟨_, bare, ports, listed, member, rfl⟩
    · rintro ⟨_, bare, ports, listed, member, _⟩
      rw [accepted.mpr ⟨bare, ports, listed, member, rfl⟩]
      rfl
  panics := by
    rw [validate_serial isAddress, asks_serial, ← serial_panics_iff isAddress]
    cases SerialBuilder.tryFrom regex availablePorts address with
    | panicked message => simp
    | returned built => simp

theorem built_and_validated (value : String) :
    BuiltAs regex availablePorts toSocketAddrs value ∧
      ValidatedAs regex availablePorts toSocketAddrs value := by
  rcases connection_cases regex value with
    ⟨host, isAddress, rfl⟩ | ⟨address, isAddress, rfl⟩ | malformed
  · exact ⟨built_as_sf isAddress, validated_as_sf isAddress⟩
  · exact ⟨built_as_serial isAddress, validated_as_serial isAddress⟩
  · have built : buildTransport regex availablePorts toSocketAddrs value =
        returned (.error ("Malformed connection string: " ++ value)) := by
      rw [buildTransport, malformed]
    have validated : validateConnectionString regex availablePorts toSocketAddrs value =
        returned (.error ("Malformed connection string: " ++ value)) := by
      rw [validateConnectionString, malformed]
    constructor
    · constructor
      · intro builder
        rw [built]
        exact iff_of_false (by simp) (not_describes malformed)
      · rw [built]
        exact iff_of_false (by simp) (not_asks malformed)
    · constructor
      · rw [validated]
        refine iff_of_false (by simp) ?_
        rintro (⟨builder, describes⟩ | nothing)
        · exact not_describes malformed describes
        · exact not_resolves malformed nothing
      · rw [validated]
        exact iff_of_false (by simp) (not_asks malformed)

theorem connect_some_iff {builder : ConnectionBuilder SocketAddr} :
    connect regex availablePorts toSocketAddrs value = returned (some builder) ↔
      ∃ transport, Describes regex availablePorts toSocketAddrs value transport ∧
        builder = ⟨∅, TransportBuilder.setReconnectTimeout (fromSecs 10) transport⟩ := by
  obtain ⟨built, validated⟩ := @built_and_validated _ regex availablePorts toSocketAddrs value
  constructor
  · intro connected
    obtain ⟨result, validates, turn⟩ := bind_eq_returned.mp connected
    cases result with
    | error message => cases turn
    | ok accepted =>
        obtain ⟨result, builds, turn⟩ := bind_eq_returned.mp turn
        obtain ⟨transport, returns, mapped⟩ := bind_eq_returned.mp builds
        cases transport with
        | error message =>
            cases mapped
            cases turn
        | ok transport =>
            cases mapped
            cases turn
            exact ⟨transport, (built.builds transport).mp returns, rfl⟩
  · rintro ⟨transport, describes, rfl⟩
    have validates := validated.accepts.mpr (.inl ⟨transport, describes⟩)
    have builds := (built.builds transport).mpr describes
    simp only [connect, validates, ConnectionBuilder.withConnectionString, builds,
      returned_bind, pure_eq]
    rfl

theorem resolves_not_describes (nothing : ResolvesToNothing regex toSocketAddrs value)
    {builder : TransportBuilder SocketAddr} :
    ¬ Describes regex availablePorts toSocketAddrs value builder := by
  obtain ⟨host, isAddress, rfl, resolved⟩ := nothing
  rw [describes_sf isAddress, resolved]
  rintro ⟨addr, rest, same, _⟩
  cases same

theorem connect_panics_iff :
    (∃ message, connect regex availablePorts toSocketAddrs value = panicked message) ↔
      ResolvesToNothing regex toSocketAddrs value ∨ AsksInVain availablePorts value := by
  obtain ⟨built, validated⟩ := @built_and_validated _ regex availablePorts toSocketAddrs value
  cases validates : validateConnectionString regex availablePorts toSocketAddrs value with
  | panicked message =>
      have panics : connect regex availablePorts toSocketAddrs value = panicked message := by
        rw [connect, validates]
        rfl
      exact iff_of_true ⟨message, panics⟩ (.inr (validated.panics.mp ⟨message, validates⟩))
  | returned result =>
      have answered : ¬ AsksInVain availablePorts value := by
        intro vain
        obtain ⟨message, panics⟩ := validated.panics.mpr vain
        rw [validates] at panics
        cases panics
      rw [or_iff_left answered]
      simp only [connect, validates, returned_bind, ConnectionBuilder.withConnectionString]
      cases result with
      | error message =>
          refine iff_of_false (by simp) ?_
          intro nothing
          have accepts := validated.accepts.mpr (.inr nothing)
          rw [validates] at accepts
          cases accepts
      | ok accepted =>
          cases builds : buildTransport regex availablePorts toSocketAddrs value with
          | panicked message => exact absurd (built.panics.mp ⟨message, builds⟩) answered
          | returned transport =>
              cases transport with
              | ok transport =>
                  refine iff_of_false (by simp [Except.map]) ?_
                  intro nothing
                  exact resolves_not_describes nothing ((built.builds transport).mp builds)
              | error message =>
                  refine iff_of_true ⟨_, rfl⟩ ?_
                  refine (validated.accepts.mp validates).resolve_left ?_
                  rintro ⟨builder, describes⟩
                  have refused := (built.builds builder).mpr describes
                  rw [builds] at refused
                  cases refused

/-- For every string and every system: what is built, what the listener's validator accepts, and
what becomes of the listener. A server that has no address passes the validator and ends the
listener with a panic; otherwise the two agree. -/
theorem accepted_strings (regex : RegexCrate) (availablePorts : Except String (List String))
    (toSocketAddrs : String → Except String (List SocketAddr)) (value : String) :
    BuiltAs regex availablePorts toSocketAddrs value ∧
    ValidatedAs regex availablePorts toSocketAddrs value ∧
    (∀ builder, connect regex availablePorts toSocketAddrs value = returned (some builder) ↔
      ∃ transport, Describes regex availablePorts toSocketAddrs value transport ∧
        builder = ⟨∅, TransportBuilder.setReconnectTimeout (fromSecs 10) transport⟩) ∧
    ((∃ message, connect regex availablePorts toSocketAddrs value = panicked message) ↔
      ResolvesToNothing regex toSocketAddrs value ∨ AsksInVain availablePorts value) :=
  ⟨(built_and_validated value).1, (built_and_validated value).2, fun _ => connect_some_iff,
    connect_panics_iff⟩

end Accepted

example : validateConnectionString asciiBacktracking (.ok ["COM3"]) noSuchHost "serial@COM3:9600" =
    returned (.error "Invalid baud rate :9600!") := by
  decide +kernel

end MoteConnection.ConnectionValidation
