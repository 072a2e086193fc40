import BoundaryEventSdk.Camel.EndpointUri
import BoundaryEventSdk.Camel.RouteBuilders

/-!
# What an endpoint URI carries

`getUri` and `addQuery` paste configured texts into a URI as they are.  This
module takes the URIs apart again.  A poller URI carries its configuration
exactly when the host has no question mark and no OID text and no community has
an ampersand, a percent sign or a plus sign, and a query URI carries its query
exactly when the query has none of the three.
-/

namespace BoundaryEventSdk.Camel

open BoundaryEventSdk.Java
open BoundaryEventSdk.Snmp (SnmpPollerConfiguration OidMap)

/-- The host of an address: up to the last colon. -/
def hostOf (address : JString) : JString :=
  (afterFirst 58 address.reverse).reverse

/-- The port of an address: after the last colon. -/
def portOf (address : JString) : JString :=
  (beforeFirst 58 address.reverse).reverse

theorem hostOf_append (host : JString) {port : JString} (h : 58 ∉ port) :
    hostOf (host ++ 58 :: port) = host := by
  rw [hostOf, List.reverse_append, List.reverse_cons, List.append_assoc, List.singleton_append,
    afterFirst_append (by simpa using h), List.reverse_reverse]

theorem portOf_append (host : JString) {port : JString} (h : 58 ∉ port) :
    portOf (host ++ 58 :: port) = port := by
  rw [portOf, List.reverse_append, List.reverse_cons, List.append_assoc, List.singleton_append,
    beforeFirst_append (by simpa using h), List.reverse_reverse]

theorem length_hostOf_le (address : JString) : (hostOf address).length ≤ address.length := by
  rw [hostOf, afterFirst, List.length_reverse, List.length_drop]
  have h :=
    (List.dropWhile_suffix (fun unit => decide (unit ≠ 58)) (l := address.reverse)).length_le
  rw [List.length_reverse] at h
  omega

/-! ## Poller URIs -/

/-- The options of a poller URI. -/
def pollOptions (config : SnmpPollerConfiguration) : List (JString × JString) :=
  [(utf16 "protocol", utf16 "udp"), (utf16 "type", utf16 "POLL"),
    (utf16 "oids", config.getOidsAsString),
    (utf16 "snmpVersion", decimal SnmpPollerRouteBuilder.version2c),
    (utf16 "snmpCommunity", display config.communityRead),
    (utf16 "delay", decimal config.delay.toInt)]

/-- A poller URI is its options, written without encoding behind the address. -/
theorem uriOf_eq (config : SnmpPollerConfiguration) :
    SnmpPollerRouteBuilder.uriOf config =
      utf16 "snmp" ++ 58 :: (display config.host ++ 58 :: decimal config.port.toInt) ++
        63 :: encodeOptions (pollOptions config) := by
  have hoptions : encodeOptions (pollOptions config) =
      utf16 "protocol=udp" ++ utf16 "&type=POLL" ++ (utf16 "&oids=" ++ config.getOidsAsString) ++
        (utf16 "&snmpVersion=" ++ decimal SnmpPollerRouteBuilder.version2c) ++
        (utf16 "&snmpCommunity=" ++ display config.communityRead) ++
        (utf16 "&delay=" ++ decimal config.delay.toInt) := by
    simp [encodeOptions, pollOptions, optionText, List.intercalate_cons_cons]
    rfl
  have hquestion : utf16 "?protocol=udp" = 63 :: utf16 "protocol=udp" := rfl
  rw [SnmpPollerRouteBuilder.uriOf, SnmpPollerRouteBuilder.getUri, hoptions, hquestion]
  simp
  rfl

/-- The OIDs that are joined are plain exactly when each of them is. -/
theorem plain_getOidsAsString (config : SnmpPollerConfiguration) :
    Plain config.getOidsAsString ↔ ∀ oid ∈ config.oids, Plain (display oid.oid) := by
  have hmem : ∀ unit : UInt16, unit ≠ 44 →
      (unit ∈ config.getOidsAsString ↔ ∃ oid ∈ config.oids, unit ∈ display oid.oid) := by
    intro unit hunit
    rw [SnmpPollerConfiguration.getOidsAsString_eq]
    cases config.oids with
    | nil => simp
    | cons oid oids =>
      have hcomma : unit ∉ utf16 "," := fun h => hunit (List.mem_singleton.mp h)
      simp [intercalate_cons, hcomma]
  simp only [Plain, hmem _ (show (38 : UInt16) ≠ 44 by decide),
    hmem _ (show (37 : UInt16) ≠ 44 by decide), hmem _ (show (43 : UInt16) ≠ 44 by decide),
    not_exists, not_and]
  constructor
  · intro h oid hoid
    exact ⟨h.1 oid hoid, h.2.1 oid hoid, h.2.2 oid hoid⟩
  · intro h
    exact ⟨fun oid hoid => (h oid hoid).1, fun oid hoid => (h oid hoid).2.1,
      fun oid hoid => (h oid hoid).2.2⟩

theorem plain_decimal (n : Int) : Plain (decimal n) :=
  ⟨not_mem_decimal (by decide), not_mem_decimal (by decide), not_mem_decimal (by decide)⟩

/-- The URI of a configuration decodes to the host, the port, the OIDs, the
community and the delay of the configuration, and no option occurs twice. -/
def PollUriCarries (config : SnmpPollerConfiguration) : Prop :=
  ∃ uri, EndpointUri.decode (SnmpPollerRouteBuilder.uriOf config) = some uri ∧
    hostOf uri.address = display config.host ∧
    portOf uri.address = decimal config.port.toInt ∧
    Carries uri.options (utf16 "oids") config.getOidsAsString ∧
    Carries uri.options (utf16 "snmpCommunity") (display config.communityRead) ∧
    Carries uri.options (utf16 "delay") (decimal config.delay.toInt) ∧
    (uri.options.map Prod.fst).Nodup

theorem not_mem_port (config : SnmpPollerConfiguration) {unit : UInt16} (h : 57 < unit.toNat) :
    unit ∉ decimal config.port.toInt :=
  not_mem_decimal (Or.inr h)

/-- A host that is carried has no question mark, since the address would end
before it. -/
theorem PollUriCarries.question_not_mem {config : SnmpPollerConfiguration}
    (h : PollUriCarries config) : 63 ∉ display config.host := by
  rw [PollUriCarries, uriOf_eq] at h
  obtain ⟨uri, hdecode, hhost, _⟩ := h
  intro hmem
  obtain ⟨front, back, hsplit, hfront⟩ := List.eq_append_cons_of_mem hmem
  have huri : utf16 "snmp" ++ 58 :: (display config.host ++ 58 :: decimal config.port.toInt) ++
        63 :: encodeOptions (pollOptions config) =
      utf16 "snmp" ++ 58 :: front ++ 63 ::
        (back ++ 58 :: decimal config.port.toInt ++ 63 :: encodeOptions (pollOptions config)) := by
    rw [hsplit]
    simp
  rw [huri, EndpointUri.decode_append (by decide) (by decide) hfront] at hdecode
  obtain ⟨options, _, rfl⟩ := Option.map_eq_some_iff.mp hdecode
  have hlength := length_hostOf_le front
  rw [hhost, hsplit] at hlength
  simp only [List.length_append, List.length_cons] at hlength
  omega

theorem decodeOptions_pollOptions {config : SnmpPollerConfiguration}
    (hoids : Plain config.getOidsAsString) (hcommunity : Plain (display config.communityRead)) :
    decodeOptions (encodeOptions (pollOptions config)) = some (pollOptions config) := by
  refine decodeOptions_encode (by simp [pollOptions]) ?_
  simp only [pollOptions, List.forall_mem_cons]
  exact ⟨by decide, by decide, ⟨by decide, hoids⟩, ⟨by decide, plain_decimal _⟩,
    ⟨by decide, hcommunity⟩, ⟨by decide, plain_decimal _⟩, by simp⟩

theorem pollUriCarries_iff (config : SnmpPollerConfiguration) :
    PollUriCarries config ↔
      63 ∉ display config.host ∧ (∀ oid ∈ config.oids, Plain (display oid.oid)) ∧
        Plain (display config.communityRead) := by
  have haddress : 63 ∉ display config.host →
      63 ∉ display config.host ++ 58 :: decimal config.port.toInt := by
    intro hquestion
    simp [hquestion, not_mem_port]
  rw [← plain_getOidsAsString]
  constructor
  · intro h
    have hquestion := h.question_not_mem
    rw [PollUriCarries, uriOf_eq,
      EndpointUri.decode_append (by decide) (by decide) (haddress hquestion)] at h
    obtain ⟨uri, hdecode, _, _, hoids, hcommunity, _⟩ := h
    obtain ⟨options, hoptions, rfl⟩ := Option.map_eq_some_iff.mp hdecode
    have hparts : ∀ option ∈ pollOptions config, ∀ part ∈ (optionText option).splitOn 38,
        part ∈ (encodeOptions (pollOptions config)).splitOn 38 := by
      intro option hoption part hpart
      rw [pollOptions, splitOn_encodeOptions]
      exact List.mem_flatMap.mpr ⟨option, hoption, hpart⟩
    refine ⟨hquestion, ?_, ?_⟩
    · exact plain_of_carries (by decide) hoptions (hparts _ (by simp [pollOptions])) hoids
    · exact plain_of_carries (by decide) hoptions (hparts _ (by simp [pollOptions])) hcommunity
  · intro h
    obtain ⟨hquestion, hoids, hcommunity⟩ := h
    rw [PollUriCarries, uriOf_eq,
      EndpointUri.decode_append (by decide) (by decide) (haddress hquestion),
      decodeOptions_pollOptions hoids hcommunity]
    have hcolon := not_mem_port config (show 57 < (58 : UInt16).toNat by decide)
    refine ⟨_, rfl, hostOf_append _ hcolon, portOf_append _ hcolon, ?_, ?_, ?_, ?_⟩
    · simp +decide [Carries, pollOptions]
    · simp +decide [Carries, pollOptions]
    · simp +decide [Carries, pollOptions]
    · simp +decide [pollOptions]

/-! ## Query URIs -/

/-- The URI of a query decodes to the text of the query as its one `eql`
option. -/
def QueryUriCarries (builder : EsperRouteBuilder) (query : Option JString) : Prop :=
  ∃ uri, EndpointUri.decode (builder.queryUri query) = some uri ∧
    Carries uri.options (utf16 "eql") (display query)

/-- The name of the engine brings no `eql` option of its own, so the URI
without a query decodes and has none. -/
def EngineBringsNoQuery (builder : EsperRouteBuilder) : Prop :=
  ∃ uri, EndpointUri.decode builder.inputUri = some uri ∧
    ∀ option ∈ uri.options, option.1 ≠ utf16 "eql"

theorem queryUri_eq (builder : EsperRouteBuilder) (query : Option JString) :
    builder.queryUri query =
      builder.inputUri ++ 38 :: optionText (utf16 "eql", display query) := by
  have hoption : utf16 "?configured=true&eql=" =
      utf16 "?configured=true" ++ 38 :: (utf16 "eql" ++ [61]) := rfl
  rw [EsperRouteBuilder.queryUri, EsperRouteBuilder.inputUri, hoption, optionText]
  simp

/-- An engine whose name has no question mark brings no query. -/
theorem engineBringsNoQuery {builder : EsperRouteBuilder} (h : 63 ∉ display builder.engine) :
    EngineBringsNoQuery builder := by
  have huri : builder.inputUri =
      utf16 "esper" ++ 58 :: (utf16 "//" ++ display builder.engine) ++
        63 :: encodeOptions [(utf16 "configured", utf16 "true")] := by
    have hquestion : utf16 "?configured=true" =
        63 :: encodeOptions [(utf16 "configured", utf16 "true")] := rfl
    rw [EsperRouteBuilder.inputUri, hquestion]
    simp
    rfl
  have haddress : 63 ∉ utf16 "//" ++ display builder.engine := by
    rw [List.mem_append, not_or]
    exact ⟨by decide, h⟩
  rw [EngineBringsNoQuery, huri, EndpointUri.decode_append (by decide) (by decide) haddress,
    decodeOptions_encode (by simp) (by decide)]
  refine ⟨_, rfl, List.forall_mem_singleton.mpr ?_⟩
  decide

/-- The option of a plain query decodes to the query. -/
theorem decodeOptions_eql {query : JString} (h : Plain query) :
    decodeOptions (optionText (utf16 "eql", query)) = some [(utf16 "eql", query)] := by
  have hname : PlainName (utf16 "eql") := by decide
  have hencode := decodeOptions_encode (List.cons_ne_nil (utf16 "eql", query) [])
    (List.forall_mem_singleton.mpr ⟨hname, h⟩)
  rwa [encodeOptions, List.map_singleton, List.intercalate_singleton] at hencode

/-- An option at the end is carried exactly when no option before it has its
name. -/
theorem carries_append_iff {front : List (JString × JString)} {name value : JString} :
    Carries (front ++ [(name, value)]) name value ↔ ∀ option ∈ front, option.1 ≠ name := by
  have hlast : [(name, value)].filter (fun option => option.1 = name) = [(name, value)] := by
    simp
  rw [Carries, List.filter_append, hlast, List.append_left_eq_self, List.filter_eq_nil_iff]
  simp only [decide_eq_true_eq]

theorem queryUriCarries_iff (builder : EsperRouteBuilder) (query : Option JString) :
    QueryUriCarries builder query ↔ EngineBringsNoQuery builder ∧ Plain (display query) := by
  have hquestion : 63 ∈ builder.inputUri := by
    rw [EsperRouteBuilder.inputUri]
    exact List.mem_append_right _ (by decide)
  have hafter : afterFirst 63 (builder.queryUri query) =
      afterFirst 63 builder.inputUri ++ 38 :: optionText (utf16 "eql", display query) := by
    rw [queryUri_eq, afterFirst_append_of_mem hquestion]
  rw [QueryUriCarries, EngineBringsNoQuery, EndpointUri.decode_eq, EndpointUri.decode_eq, hafter]
  constructor
  · intro h
    obtain ⟨uri, huri, hcarries⟩ := h
    obtain ⟨options, hoptions, rfl⟩ := Option.map_eq_some_iff.mp huri
    have htext : Plain (display query) := by
      refine plain_of_carries (by decide) hoptions (fun part hpart => ?_) hcarries
      rw [List.splitOn_append_cons_self]
      exact List.mem_append_right _ hpart
    rw [decodeOptions_append, decodeOptions_eql htext] at hoptions
    obtain ⟨front, hfront, hsome⟩ := Option.bind_eq_some_iff.mp hoptions
    cases hsome
    rw [hfront]
    exact ⟨⟨_, rfl, carries_append_iff.mp hcarries⟩, htext⟩
  · intro h
    obtain ⟨⟨uri, huri, hnone⟩, htext⟩ := h
    obtain ⟨front, hfront, rfl⟩ := Option.map_eq_some_iff.mp huri
    rw [decodeOptions_append, hfront, decodeOptions_eql htext]
    exact ⟨_, rfl, carries_append_iff.mpr hnone⟩

/-! ## Both builders -/

/-- Which configurations and which queries the URIs carry. -/
theorem uris_carry_iff (config : SnmpPollerConfiguration) (builder : EsperRouteBuilder)
    (query : Option JString) :
    (PollUriCarries config ↔
      63 ∉ display config.host ∧ (∀ oid ∈ config.oids, Plain (display oid.oid)) ∧
        Plain (display config.communityRead)) ∧
    (QueryUriCarries builder query ↔ EngineBringsNoQuery builder ∧ Plain (display query)) :=
  ⟨pollUriCarries_iff config, queryUriCarries_iff builder query⟩

/-- A community with an ampersand and a query with a sum are changed on the
way. -/
theorem uris_carry_reserved :
    ¬ PollUriCarries { communityRead := some (utf16 "a&b") } ∧
      ¬ QueryUriCarries { engine := some (utf16 "events") }
        (some (utf16 "select a+b as c from Event")) := by
  rw [pollUriCarries_iff, queryUriCarries_iff]
  exact ⟨fun h => absurd h.2.2 (by decide), fun h => absurd h.2 (by decide)⟩

end BoundaryEventSdk.Camel
