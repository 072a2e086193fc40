import BoundaryEventSdk.Java.LinkedHashMap
import BoundaryEventSdk.Snmp.OidSelection
import BoundaryEventSdk.Snmp.VariableBinding

/-!
# From a polled OID back to its metric

A configuration is used twice.  `getOidsAsString` gives the agent the texts of
the OIDs, and when the answer comes, the script looks the answered OID up in
`getOidMap` under the text that SNMP4J prints for it.  Three notions of one OID
meet here: the set of `getOids` compares text, metric and description, the map
has one entry for each text, and the lookup uses the canonical text.

SNMP4J reads the texts.  It is not part of this repository, so `parse` is a
parameter, and nothing is assumed about it; `parseDotted` is a function that
reads dotted text the way SNMP4J does.
-/

namespace BoundaryEventSdk.Snmp

open BoundaryEventSdk.Java

namespace SnmpPollerConfiguration

/-- `SnmpPollerConfiguration.getOidMap`. -/
def getOidMap (config : SnmpPollerConfiguration) : LinkedHashMap (Option JString) OidMap :=
  config.oids.foldl (fun map oid => map.put oid.oid oid) .empty

/-- `SnmpPollerConfiguration.getOidsAsString`. -/
def getOidsAsString (config : SnmpPollerConfiguration) : JString :=
  (config.oids.foldl (fun (builder, first) oid =>
    ((if first then builder else builder ++ utf16 ",") ++ display oid.oid, false))
    (([], true) : JString × Bool)).1

private theorem getOidsAsString_loop (oids : List OidMap) (builder : JString) :
    (oids.foldl (fun (builder, first) oid =>
      ((if first then builder else builder ++ utf16 ",") ++ display oid.oid, false))
      (builder, false)).1 = builder ++ oids.flatMap fun oid => utf16 "," ++ display oid.oid := by
  induction oids generalizing builder with
  | nil => simp
  | cons oid oids ih =>
    rw [List.foldl_cons, List.flatMap_cons]
    refine (ih _).trans ?_
    simp

/-- The agent is asked for the text of every OID of the configuration. -/
theorem getOidsAsString_eq (config : SnmpPollerConfiguration) :
    config.getOidsAsString =
      List.intercalate (utf16 ",") (config.oids.map fun oid => display oid.oid) := by
  rw [getOidsAsString]
  cases config.oids with
  | nil => rfl
  | cons oid oids =>
    rw [List.foldl_cons, List.map_cons, intercalate_cons, List.flatMap_map]
    exact getOidsAsString_loop oids _

/-- Each OID whose text is read as `o` is found again under the canonical text
of `o`. -/
def ReportsPolled (parse : JString → Option Oid) (config : SnmpPollerConfiguration) : Prop :=
  ∀ m ∈ config.oids, ∀ text, m.oid = some text → ∀ o, parse text = some o →
    config.getOidMap.get (some (toDottedString o)) = some m

end SnmpPollerConfiguration

/-- The enabled OIDs of the lists with the given ids have canonical texts, and
no text stands for two metrics or descriptions. -/
def CanonicalTexts (parse : JString → Option Oid) (entries : List OidMapEntry)
    (ids : List Int64) : Prop :=
  ∀ m ∈ candidates entries ids, ∀ text, m.oid = some text → ∀ o, parse text = some o →
    text = toDottedString o ∧
      ∀ other ∈ candidates entries ids, other.oid = some text → other.key = m.key

theorem oid_eq_of_key_eq {m other : OidMap} (h : m.key = other.key) : m.oid = other.oid :=
  congrArg (fun key => key.2.2) h

/-- What the map holds under a text has that text. -/
theorem oid_of_getOidMap {config : SnmpPollerConfiguration} {text : Option JString} {m : OidMap}
    (h : config.getOidMap.get text = some m) : m.oid = text := by
  rcases LinkedHashMap.mem_putAll (LinkedHashMap.get_eq_some_iff.mp h) with hempty | ⟨m', _, he⟩
  · cases hempty
  · cases he
    rfl

/-- One configuration: every polled OID is found again exactly when the texts
of the candidates are canonical and stand for one metric each. -/
theorem reportsPolled_iff {parse : JString → Option Oid} {entries : List OidMapEntry}
    {ids : List Int64} {config : SnmpPollerConfiguration}
    (hoids : config.oids = dropRepeats (candidates entries ids)) :
    config.ReportsPolled parse ↔ CanonicalTexts parse entries ids := by
  constructor
  · intro h m hm text htext o ho
    have hkept : ∀ other ∈ candidates entries ids, other.oid = some text →
        ∃ kept, config.getOidMap.get (some (toDottedString o)) = some kept ∧
          kept.key = other.key := by
      intro other hother hsame
      obtain ⟨kept, hmem, hkey⟩ := List.mem_map.mp (key_mem_dropRepeats hother)
      have hkeptText : kept.oid = some text := (oid_eq_of_key_eq hkey).trans hsame
      exact ⟨kept, h kept (hoids ▸ hmem) text hkeptText o ho, hkey⟩
    obtain ⟨kept, hget, hkey⟩ := hkept m hm htext
    constructor
    · have hcanonical := oid_of_getOidMap hget
      rw [oid_eq_of_key_eq hkey, htext] at hcanonical
      exact Option.some.inj hcanonical
    · intro other hother hsame
      obtain ⟨kept', hget', hkey'⟩ := hkept other hother hsame
      rw [hget] at hget'
      rw [← hkey', ← hkey, Option.some.inj hget']
  · intro h m hm text htext o ho
    rw [hoids] at hm
    obtain ⟨hcanonical, hunique⟩ := h m (mem_of_mem_eraseDupsBy hm) text htext o ho
    rw [← hcanonical, ← htext, SnmpPollerConfiguration.getOidMap]
    refine LinkedHashMap.get_putAll_of_unique OidMap.oid id (hoids ▸ hm) ?_ _
    intro other hother hsame
    rw [hoids] at hother
    have hkey := hunique other (mem_of_mem_eraseDupsBy hother) (hsame.trans htext)
    exact eraseDupsBy_key_injective hother hm hkey

/-- Every configuration that `load` returns finds its polled OIDs again exactly
when the candidates of every poller with a host have canonical texts, each for
one metric. -/
theorem oid_lookup (parse : JString → Option Oid) (catalog : SnmpMetricCatalog)
    (list : List SnmpPollerConfiguration) (hload : catalog.load = .ok list) :
    (∀ config ∈ list, config.ReportsPolled parse) ↔
      ∀ poller ∈ catalog.pollers.getD [], catalog.HasHost poller →
        CanonicalTexts parse (catalog.oidLists.getD []) (enabledRefIds poller.oidLists) := by
  have hcovers := SnmpMetricCatalog.load_ok hload
  constructor
  · intro h poller hpoller hhost
    obtain ⟨config, hconfig, hoids⟩ := hcovers.ofPoller poller hpoller hhost
    exact (reportsPolled_iff (SnmpMetricCatalog.pollerOids_ok hoids)).mp (h config hconfig)
  · intro h config hconfig
    obtain ⟨poller, hpoller, hhost, hoids⟩ := hcovers.fromPoller config hconfig
    exact (reportsPolled_iff (SnmpMetricCatalog.pollerOids_ok hoids)).mpr (h poller hpoller hhost)

/-- Dotted decimal text, with or without a leading dot. -/
def parseDotted (text : JString) : Option Oid :=
  let parts :=
    match text.splitOn 46 with
    | [] :: parts => parts
    | parts => parts
  parts.mapM fun part =>
    (magnitude part).bind fun n => if n < 4294967296 then some (UInt32.ofNat n) else none

/-- One poller and one host with two OID lists of one OID each. -/
def twoOids (first second : OidMap) : SnmpMetricCatalog where
  pollers := some
    [{ delay := 5, hostLists := some [⟨1, true⟩], oidLists := some [⟨1, true⟩, ⟨2, true⟩] }]
  hostLists := some [{ id := some 1, hosts := some [0] }]
  oidLists := some [{ id := 1, oids := some [first] }, { id := 2, oids := some [second] }]
  hosts := fun _ => { host := some (utf16 "localhost") }

def sysUpTime : OidMap :=
  { object := 0, oid := some (utf16 "1.3.6.1.2.1.1.3.0"), metricId := some (utf16 "SYS_UPTIME") }

/-- Another object with the same contents. -/
def sysUpTimeAgain : OidMap := { sysUpTime with object := 1 }

theorem oid_lookup_sysUpTime :
    CanonicalTexts parseDotted ((twoOids sysUpTime sysUpTimeAgain).oidLists.getD []) [1, 2] := by
  refine (oid_lookup parseDotted (twoOids sysUpTime sysUpTimeAgain)
    [{ delay := 5, oids := [sysUpTime] }] rfl).mp ?_ _ (List.mem_singleton.mpr rfl) ?_
  · intro config hconfig m hm text htext o ho
    rw [List.mem_singleton.mp hconfig] at hm ⊢
    rw [List.mem_singleton.mp hm] at htext ⊢
    cases htext
    have hread : some o = some [1, 3, 6, 1, 2, 1, 1, 3, 0] := ho.symm.trans (by decide)
    rw [Option.some.inj hread]
    decide
  · exact ⟨({ id := some 1, hosts := some [0] }, 0), by decide, rfl⟩

def leadingDot : OidMap :=
  { object := 0, oid := some (utf16 ".1.3.6.1.2.1.1.3.0"), metricId := some (utf16 "SYS_UPTIME") }

def metricRed : OidMap :=
  { object := 0, oid := some (utf16 "1.3.6.1.2.1.25.1.5.0"),
    metricId := some (utf16 "METRIC_RED"), description := some (utf16 "Red") }

def metricSky : OidMap :=
  { object := 1, oid := some (utf16 "1.3.6.1.2.1.25.1.5.0"),
    metricId := some (utf16 "METRIC_SKY"), description := some (utf16 "Sky") }

/-- A leading dot loses the OID from the map, and of two metrics for one OID
the second shadows the first. -/
theorem oid_lookup_fails :
    (∃ list, (twoOids leadingDot metricSky).load = .ok list ∧
      ∃ config ∈ list, ¬ config.ReportsPolled parseDotted) ∧
    ∃ list, (twoOids metricRed metricSky).load = .ok list ∧
      ∃ config ∈ list, ¬ config.ReportsPolled parseDotted := by
  constructor
  · refine ⟨[{ delay := 5, oids := [leadingDot, metricSky] }], rfl, _,
      List.mem_singleton.mpr rfl, ?_⟩
    intro h
    have hlost := h leadingDot List.mem_cons_self _ rfl [1, 3, 6, 1, 2, 1, 1, 3, 0] (by decide)
    exact absurd hlost (by decide)
  · refine ⟨[{ delay := 5, oids := [metricRed, metricSky] }], rfl, _,
      List.mem_singleton.mpr rfl, ?_⟩
    intro h
    have hread : parseDotted (utf16 "1.3.6.1.2.1.25.1.5.0") =
        some [1, 3, 6, 1, 2, 1, 25, 1, 5, 0] := by decide
    have hshadowed := h metricRed List.mem_cons_self _ rfl _ hread
    exact absurd hshadowed (by decide)

end BoundaryEventSdk.Snmp
