/-
# The Prometheus text, read back

A line of the Prometheus text is a comment or a sample.  If the labels are plain, as those of an
agent are, the text is read back as its samples (`Metrics.parse_renderPrometheus`), and the
counters off the samples (`Metrics.filterMap_series`).  The samples are made of the fields of the
registry (`Metrics.filterMap_sample`), and those of the counters never fall as it grows
(`MetricsSnapshot.GrowsTo.samples`).
-/
import L4Scope.Conservation
import L4Scope.EventDocument
import L4Scope.Exposition
import L4Scope.ExporterParity
import L4Scope.HttpMessage

variable {F : Type}

/-! ## Lines and samples -/

namespace PromLine

/-- The sample on a line, if there is one. -/
def sample : PromLine → Option Exposition.Sample
  | counter metric labels n =>
    some ⟨metric.toList, labels.map fun l => (l.1.toList, l.2.toList), (toString n).toList⟩
  | gauge metric value => some ⟨metric.toList, [], value.toList⟩
  | _ => none

/-- The line without its end. -/
def body : PromLine → List Char
  | help metric text => "# HELP ".toList ++ (metric.toList ++ ' ' :: text.toList)
  | type metric kind => "# TYPE ".toList ++ (metric.toList ++ ' ' :: kind.toList)
  | counter metric labels n => Exposition.Sample.text
      ⟨metric.toList, labels.map fun l => (l.1.toList, l.2.toList), (toString n).toList⟩
  | gauge metric value => Exposition.Sample.text ⟨metric.toList, [], value.toList⟩

/-- The line is read as it is written. -/
def Ok (l : PromLine) : Prop :=
  (∀ s ∈ l.sample, s.Ok) ∧ ∀ c ∈ l.body, c.toNat < 128 ∧ c ≠ '\n'

/-- A line ends with its break. -/
theorem toList_text (l : PromLine) : l.text.toList = l.body ++ ['\n'] := by
  -- the texts are spelled out: the equations of a format string are slow to derive
  cases l with
  | help metric content =>
      have htext : (help metric content).text = "# HELP " ++ metric ++ " " ++ content ++ "\n" := rfl
      have hbody : (help metric content).body
          = "# HELP ".toList ++ (metric.toList ++ ' ' :: content.toList) := rfl
      rw [htext, hbody]
      simp
  | type metric kind =>
      have htext : (type metric kind).text = "# TYPE " ++ metric ++ " " ++ kind ++ "\n" := rfl
      have hbody : (type metric kind).body
          = "# TYPE ".toList ++ (metric.toList ++ ' ' :: kind.toList) := rfl
      rw [htext, hbody]
      simp
  | gauge metric value =>
      have htext : (gauge metric value).text = metric ++ " " ++ value ++ "\n" := rfl
      have hbody : (gauge metric value).body = metric.toList ++ ([] ++ ' ' :: value.toList) := rfl
      rw [htext, hbody]
      simp
  | counter metric labels n =>
      cases labels with
      | nil =>
          have htext : (counter metric [] n).text = metric ++ " " ++ toString n ++ "\n" := rfl
          have hbody : (counter metric [] n).body
              = metric.toList ++ ([] ++ ' ' :: (toString n).toList) := rfl
          rw [htext, hbody]
          simp
      | cons l ls =>
          have htext : (counter metric (l :: ls) n).text = metric ++ "\x7b"
              ++ ",".intercalate ((l :: ls).map fun l => l.1 ++ "=\"" ++ l.2 ++ "\"") ++ "\x7d "
              ++ toString n ++ "\n" := rfl
          have hbody : (counter metric (l :: ls) n).body = metric.toList ++ ('{' ::
              (List.intercalate [','] (((l :: ls).map fun l => (l.1.toList, l.2.toList)).map
                Exposition.labelText) ++ ['}']) ++ ' ' :: (toString n).toList) := rfl
          have hlabels : ((l :: ls).map fun l => l.1 ++ "=\"" ++ l.2 ++ "\"").map String.toList
              = ((l :: ls).map fun l => (l.1.toList, l.2.toList)).map Exposition.labelText := by
            rw [List.map_map, List.map_map]
            apply List.map_congr_left
            intro l _
            simp [Exposition.labelText]
          rw [htext, hbody, ← hlabels]
          simp only [String.toList_append, String.toList_intercalate]
          simp

/-- A line is read back. -/
theorem line_body {l : PromLine} (h : l.Ok) : Exposition.line l.body = some l.sample := by
  cases l with
  | help metric text => rfl
  | type metric kind => rfl
  | gauge metric value => exact Exposition.line_text (h.1 _ rfl)
  | counter metric labels n => exact Exposition.line_text (h.1 _ rfl)

end PromLine

/-! ## The lines of the registry -/

/-- A label that stands between quotes as it is, in characters of one byte. -/
def IsLabel (s : String) : Prop := ∀ c ∈ s.toList, c.toNat < 128 ∧ c ≠ '"' ∧ c ≠ '\\' ∧ c ≠ '\n'

instance (s : String) : Decidable (IsLabel s) := List.decidableBAll _ s.toList

/-- A word in characters of one byte. -/
def IsValue (s : String) : Prop := s ≠ "" ∧ ∀ c ∈ s.toList, c.toNat < 128 ∧ c ≠ ' ' ∧ c ≠ '\n'

/-- A displayed number is a word. -/
theorem isValue_toString (n : ℕ) : IsValue (toString n) := by
  constructor
  · rw [Ne, ← String.toList_eq_nil_iff, toList_toString]
    exact Nat.toDigits_ne_nil
  · intro c hc
    have hdigit := isDigit_toString n c hc
    refine ⟨?_, ?_, ?_⟩
    · rw [Char.isDigit_iff_toNat] at hdigit
      exact Nat.lt_of_le_of_lt hdigit.2 (by decide)
    · rintro rfl
      exact absurd hdigit (by decide)
    · rintro rfl
      exact absurd hdigit (by decide)

namespace PromLine

/-- Names are ASCII. -/
theorem lt_of_nameChar {c : Char} (h : Exposition.nameChar c = true) : c.toNat < 128 := by
  have hupper (hc : c.isUpper = true) : c.toNat < 128 := by
    have hbounds : c.val ≥ 'A'.val ∧ c.val ≤ 'Z'.val := of_decide_eq_true hc
    exact Nat.lt_of_le_of_lt hbounds.2 (by decide)
  have hlower (hc : c.isLower = true) : c.toNat < 128 := by
    have hle : c.val ≤ 'z'.val := of_decide_eq_true (Bool.and_eq_true_iff.1 hc).2
    exact Nat.lt_of_le_of_lt hle (by decide)
  have halpha (hc : c.isAlpha = true) : c.toNat < 128 :=
    (Bool.or_eq_true_iff.1 hc).elim hupper hlower
  simp only [Exposition.nameChar, Char.isAlphanum, Bool.or_eq_true, decide_eq_true_eq,
    Char.isDigit_iff_toNat] at h
  rcases h with ((hc | ⟨-, hle⟩) | rfl) | rfl
  · exact halpha hc
  · exact Nat.lt_of_le_of_lt hle (by decide)
  · decide
  · decide

/-- A sample in characters of one byte. -/
theorem lt_of_mem_text {s : Exposition.Sample} (h : s.Ok)
    (hlabels : ∀ l ∈ s.labels, ∀ c ∈ l.2, c.toNat < 128) (hvalue : ∀ c ∈ s.value, c.toNat < 128) :
    ∀ c ∈ s.text, c.toNat < 128 := by
  have hname {n : List Char} (hn : Exposition.IsName n) : ∀ c ∈ n, c.toNat < 128 :=
    fun c hc => lt_of_nameChar (hn.2.1 c hc)
  have heq : '='.toNat < 128 := by decide
  have hquote : '"'.toNat < 128 := by decide
  have hblank : ' '.toNat < 128 := by decide
  have hjoin : ∀ ls : List (List Char × List Char), (∀ l ∈ ls, l ∈ s.labels) →
      ∀ c ∈ List.intercalate [','] (ls.map Exposition.labelText), c.toNat < 128 := by
    intro ls hls
    induction ls with
    | nil => simp
    | cons l ls ih =>
        obtain ⟨hl, hls⟩ := List.forall_mem_cons.1 hls
        have htext : ∀ c ∈ Exposition.labelText l, c.toNat < 128 := by
          rw [Exposition.labelText, List.forall_mem_append, List.forall_mem_cons,
            List.forall_mem_cons, List.forall_mem_append, List.forall_mem_singleton]
          exact ⟨hname (h.names l hl), heq, hquote, hlabels l hl, hquote⟩
        cases ls with
        | nil => simpa using htext
        | cons l' ls =>
            have hrest := ih hls
            rw [List.map_cons] at hrest
            rw [List.map_cons, List.map_cons, List.intercalate_cons_cons, List.forall_mem_append,
              List.forall_mem_append, List.forall_mem_singleton]
            exact ⟨⟨htext, by decide⟩, hrest⟩
  have hlabelsText : ∀ c ∈ s.labelsText, c.toNat < 128 := by
    rw [Exposition.Sample.labelsText]
    split_ifs
    · simp
    · rw [List.forall_mem_cons, List.forall_mem_append, List.forall_mem_singleton]
      exact ⟨by decide, hjoin s.labels fun l hl => hl, by decide⟩
  rw [Exposition.Sample.text, List.forall_mem_append, List.forall_mem_append, List.forall_mem_cons]
  exact ⟨hname h.metric, hlabelsText, hblank, hvalue⟩

/-- A line with a plain sample. -/
theorem ok_of_sample {l : PromLine} {s : Exposition.Sample} (hl : l.sample = some s)
    (hbody : l.body = s.text) (h : s.Ok) (hlabels : ∀ l ∈ s.labels, ∀ c ∈ l.2, c.toNat < 128)
    (hvalue : ∀ c ∈ s.value, c.toNat < 128) : l.Ok := by
  constructor
  · intro s' hs'
    rw [hl] at hs'
    obtain rfl := Option.some.inj hs'
    exact h
  · rw [hbody]
    intro c hc
    refine ⟨lt_of_mem_text h hlabels hvalue c hc, ?_⟩
    rintro rfl
    exact Exposition.not_mem_text h hc

/-- The line of a counter. -/
theorem ok_counter {metric : String} {labels : List (String × String)} (n : ℕ)
    (hmetric : Exposition.IsName metric.toList)
    (hlabels : ∀ l ∈ labels, Exposition.IsName l.1.toList ∧ IsLabel l.2) :
    (counter metric labels n).Ok := by
  obtain ⟨hne, hdigit⟩ := isValue_toString n
  rw [Ne, ← String.toList_eq_nil_iff] at hne
  refine ok_of_sample rfl rfl ⟨hmetric, ?_, ?_, hne, ?_, ?_⟩ ?_ fun c hc => (hdigit c hc).1
  · exact List.forall_mem_map.2 fun l hl => (hlabels l hl).1
  · exact List.forall_mem_map.2 fun l hl c hc => ((hlabels l hl).2 c hc).2
  · exact fun hmem => (hdigit _ hmem).2.1 rfl
  · exact fun hmem => (hdigit _ hmem).2.2 rfl
  · exact List.forall_mem_map.2 fun l hl c hc => ((hlabels l hl).2 c hc).1

/-- A text on one line. -/
def IsLine (s : List Char) : Prop := ∀ c ∈ s, c.toNat < 128 ∧ c ≠ '\n'

instance (s : List Char) : Decidable (IsLine s) := List.decidableBAll _ s

/-- A help line. -/
theorem ok_help {metric content : String} (h : IsLine (metric.toList ++ content.toList)) :
    (help metric content).Ok := by
  have hsample : (help metric content).sample = none := rfl
  have hbody : (help metric content).body
      = "# HELP ".toList ++ (metric.toList ++ ' ' :: content.toList) := rfl
  have hhead : IsLine "# HELP ".toList := by decide
  rw [IsLine, List.forall_mem_append] at h
  refine ⟨by rw [hsample]; simp, ?_⟩
  rw [hbody, List.forall_mem_append, List.forall_mem_append, List.forall_mem_cons]
  exact ⟨hhead, h.1, by decide, h.2⟩

/-- A type line. -/
theorem ok_type {metric kind : String} (h : IsLine (metric.toList ++ kind.toList)) :
    (type metric kind).Ok := by
  have hsample : (type metric kind).sample = none := rfl
  have hbody : (type metric kind).body
      = "# TYPE ".toList ++ (metric.toList ++ ' ' :: kind.toList) := rfl
  have hhead : IsLine "# TYPE ".toList := by decide
  rw [IsLine, List.forall_mem_append] at h
  refine ⟨by rw [hsample]; simp, ?_⟩
  rw [hbody, List.forall_mem_append, List.forall_mem_append, List.forall_mem_cons]
  exact ⟨hhead, h.1, by decide, h.2⟩

/-- The line of a gauge. -/
theorem ok_gauge {metric value : String} (hmetric : Exposition.IsName metric.toList)
    (hvalue : IsValue value) : (gauge metric value).Ok := by
  have hne : value.toList ≠ [] := by
    rw [Ne, String.toList_eq_nil_iff]
    exact hvalue.1
  refine ok_of_sample rfl rfl ⟨hmetric, by simp, by simp, hne, ?_, ?_⟩ (by simp) fun c hc =>
    (hvalue.2 c hc).1
  · exact fun hmem => (hvalue.2 _ hmem).2.1 rfl
  · exact fun hmem => (hvalue.2 _ hmem).2.2 rfl

end PromLine

namespace Metrics

variable [F64 F]

/-- **The text is read back line by line.** -/
theorem parse_renderPrometheus {m : Metrics F} (h : ∀ l ∈ m.promLines, l.Ok) :
    Exposition.parse m.renderPrometheus.toList = some (m.promLines.filterMap PromLine.sample) := by
  have htext : m.renderPrometheus.toList = m.promLines.flatMap fun l => l.body ++ ['\n'] := by
    rw [renderPrometheus, String.toList_join, List.flatMap_map]
    exact List.flatMap_congr fun l _ => l.toList_text
  rw [htext]
  exact Exposition.parse_lines (fun l hl hmem => (h l hl).2 _ hmem |>.2 rfl)
    fun l hl => PromLine.line_body (h l hl)

/-- The labels of the counters have the property. -/
structure Labels (P : String → Prop) (m : Metrics F) : Prop where
  events : ∀ e ∈ m.eventCounts.entries, P (ofLex e.1).1 ∧ P (ofLex e.1).2
  podEvents : ∀ e ∈ m.podEventCounts.entries, P (ofLex e.1).1 ∧ P (ofLex (ofLex e.1).2).1 ∧
    P (ofLex (ofLex e.1).2).2
  podPackets : ∀ e ∈ m.podPackets.entries, P e.1

omit [F64 F] in
/-- The lines of the host. -/
theorem Labels.ok_node {m : Metrics F} (h : m.Labels IsLabel) : ∀ l ∈ m.promNode, l.Ok := by
  have hkind : Exposition.IsName "kind".toList := by decide
  have hseverity : Exposition.IsName "severity".toList := by decide
  have hevents : ∀ l ∈ m.promEvents, l.Ok := by
    rw [promEvents, List.forall_mem_map]
    intro e he
    refine PromLine.ok_counter _ (by decide) ?_
    simp only [List.forall_mem_cons]
    exact ⟨⟨hkind, (h.events e he).1⟩, ⟨hseverity, (h.events e he).2⟩, by simp⟩
  rw [promNode, List.forall_mem_append]
  refine ⟨?_, hevents⟩
  simp only [List.forall_mem_cons]
  exact ⟨PromLine.ok_help (by decide), PromLine.ok_type (by decide),
    PromLine.ok_counter _ (by decide) (by simp), PromLine.ok_help (by decide),
    PromLine.ok_type (by decide), PromLine.ok_counter _ (by decide) (by simp),
    PromLine.ok_help (by decide), PromLine.ok_type (by decide), by simp⟩

omit [F64 F] in
/-- The lines of the pods. -/
theorem Labels.ok_pods {m : Metrics F} (h : m.Labels IsLabel) : ∀ l ∈ m.promPods, l.Ok := by
  have hip : Exposition.IsName "pod_ip".toList := by decide
  have hkind : Exposition.IsName "kind".toList := by decide
  have hseverity : Exposition.IsName "severity".toList := by decide
  have hevents : ∀ l ∈ m.promPodEvents, l.Ok := by
    rw [promPodEvents, List.forall_mem_map]
    intro e he
    obtain ⟨hpod, hk, hs⟩ := h.podEvents e he
    refine PromLine.ok_counter _ (by decide) ?_
    simp only [List.forall_mem_cons]
    exact ⟨⟨hip, hpod⟩, ⟨hkind, hk⟩, ⟨hseverity, hs⟩, by simp⟩
  have hpackets : ∀ l ∈ m.promPodPackets, l.Ok := by
    rw [promPodPackets, List.forall_mem_map]
    intro e he
    refine PromLine.ok_counter _ (by decide) ?_
    simp only [List.forall_mem_cons]
    exact ⟨⟨hip, h.podPackets e he⟩, by simp⟩
  rw [promPods]
  split_ifs
  · simp
  · simp only [List.forall_mem_append, List.forall_mem_cons]
    exact ⟨⟨⟨⟨PromLine.ok_help (by decide), PromLine.ok_type (by decide), by simp⟩, hevents⟩,
      PromLine.ok_help (by decide), PromLine.ok_type (by decide), by simp⟩, hpackets⟩

/-- The lines of the gauges. -/
theorem ok_gauges (m : Metrics F) (hfixed : ∀ x : F, IsValue (F64.fixed 3 x)) :
    ∀ l ∈ m.promGauges, l.Ok := by
  rw [promGauges]
  simp only [List.forall_mem_cons]
  exact ⟨PromLine.ok_help (by decide), PromLine.ok_type (by decide),
    PromLine.ok_gauge (by decide) (isValue_toString _),
    PromLine.ok_help (by decide), PromLine.ok_type (by decide),
    PromLine.ok_gauge (by decide) (isValue_toString _),
    PromLine.ok_help (by decide), PromLine.ok_type (by decide),
    PromLine.ok_gauge (by decide) (hfixed _),
    PromLine.ok_help (by decide), PromLine.ok_type (by decide),
    PromLine.ok_gauge (by decide) (hfixed _), by simp⟩

/-- All lines. -/
theorem Labels.ok {m : Metrics F} (h : m.Labels IsLabel)
    (hfixed : ∀ x : F, IsValue (F64.fixed 3 x)) : ∀ l ∈ m.promLines, l.Ok := by
  rw [promLines, List.forall_mem_append, List.forall_mem_append]
  exact ⟨⟨h.ok_node, h.ok_pods⟩, m.ok_gauges hfixed⟩

end Metrics

/-- An address can be a label. -/
theorem isLabel_ip (ip : IpAddr) : IsLabel (toString ip) := by
  rcases ip with o | o
  · exact forall_mem_ipv4Text (by decide) (by decide) o.1
  · exact forall_mem_ipv6Text (by decide) (by decide) (by decide) o

/-! ## The samples by the fields of the registry -/

namespace MetricsSnapshot

/-- The counts of events. -/
def eventCounters (s : MetricsSnapshot F) : List (String × List (String × String) × ℕ) :=
  s.eventCounts.map fun e => ("l4scope_events", [("kind", e.1), ("severity", e.2.1)], e.2.2)

/-- The counts of the pods' events. -/
def podEventCounters (s : MetricsSnapshot F) : List (String × List (String × String) × ℕ) :=
  s.podEventCounts.map fun e => ("l4scope_pod_events",
    [("pod_ip", e.1), ("kind", e.2.1), ("severity", e.2.2.1)], e.2.2.2)

/-- The counts of the pods' packets. -/
def podPacketCounters (s : MetricsSnapshot F) : List (String × List (String × String) × ℕ) :=
  s.podPackets.map fun e => ("l4scope_pod_packets_total", [("pod_ip", e.1)], e.2)

/-- There is nothing about pods before the first event of a pod. -/
def podCounters (s : MetricsSnapshot F) : List (String × List (String × String) × ℕ) :=
  if s.podEventCounts.isEmpty then [] else s.podEventCounters ++ s.podPacketCounters

/-- The counters that Prometheus is told, each with its labels. -/
def counters (s : MetricsSnapshot F) : List (String × List (String × String) × ℕ) :=
  ("l4scope_packets_total", [], s.packetsTotal) :: ("l4scope_events_total", [], s.eventsTotal) ::
    (s.eventCounters ++ s.podCounters)

/-- The gauges that Prometheus is told. -/
def gauges [F64 F] (s : MetricsSnapshot F) : List (String × String) :=
  [("l4scope_active_flows", toString s.activeFlows),
    ("l4scope_half_open_max", toString s.halfOpenMax),
    ("l4scope_rst_per_second", F64.fixed 3 s.rstPerSec),
    ("l4scope_new_flows_per_second", F64.fixed 3 s.newFlowPerSec)]

/-- The sample of a counter. -/
def counterSample (c : String × List (String × String) × ℕ) : Exposition.Sample :=
  ⟨c.1.toList, c.2.1.map fun l => (l.1.toList, l.2.toList), (toString c.2.2).toList⟩

/-- The samples that Prometheus is told. -/
def samples [F64 F] (s : MetricsSnapshot F) : List Exposition.Sample :=
  s.counters.map counterSample ++ s.gauges.map fun g => ⟨g.1.toList, [], g.2.toList⟩

end MetricsSnapshot

namespace Exposition.Sample

/-- The sample publishes the same series as before, with a number that is no smaller. -/
def GrowsTo (s s' : Sample) : Prop := s'.metric = s.metric ∧ s'.labels = s.labels ∧
  ∃ n n', readDecimal s.value = some n ∧ readDecimal s'.value = some n' ∧ n ≤ n'

end Exposition.Sample

/-- The metrics that are announced as counters. -/
def counterNames : List String :=
  ["l4scope_packets_total", "l4scope_events_total", "l4scope_events", "l4scope_pod_events",
    "l4scope_pod_packets_total"]

/-- The sample is one of a metric that its type line announces as a counter
(`Metrics.type_counter_iff`). -/
def Exposition.Sample.IsCounter (s : Exposition.Sample) : Prop :=
  String.ofList s.metric ∈ counterNames

namespace Metrics

variable [F64 F]

/-- **The lines hold the fields of the registry.** -/
theorem filterMap_sample (m : Metrics F) :
    m.promLines.filterMap PromLine.sample = m.snapshot.samples := by
  have hevents : m.promEvents.filterMap PromLine.sample
      = m.snapshot.eventCounters.map MetricsSnapshot.counterSample := by
    rw [promEvents, List.filterMap_map, MetricsSnapshot.eventCounters, snapshot, List.map_map,
      List.map_map, ← List.filterMap_eq_map]
    rfl
  have hpodEvents : m.promPodEvents.filterMap PromLine.sample
      = m.snapshot.podEventCounters.map MetricsSnapshot.counterSample := by
    rw [promPodEvents, List.filterMap_map, MetricsSnapshot.podEventCounters, snapshot, List.map_map,
      List.map_map, ← List.filterMap_eq_map]
    rfl
  have hpodPackets : m.promPodPackets.filterMap PromLine.sample
      = m.snapshot.podPacketCounters.map MetricsSnapshot.counterSample := by
    rw [promPodPackets, List.filterMap_map, MetricsSnapshot.podPacketCounters, snapshot,
      List.map_map, ← List.filterMap_eq_map]
    rfl
  have hnode : m.promNode.filterMap PromLine.sample
      = (("l4scope_packets_total", [], m.packetsTotal) ::
        ("l4scope_events_total", [], m.eventsTotal) ::
          m.snapshot.eventCounters).map MetricsSnapshot.counterSample := by
    rw [promNode, List.filterMap_append, hevents]
    rfl
  have hpods : m.promPods.filterMap PromLine.sample
      = m.snapshot.podCounters.map MetricsSnapshot.counterSample := by
    have hguard : m.snapshot.podEventCounts.isEmpty = m.podEventCounts.entries.isEmpty :=
      List.isEmpty_map
    have hnone : ∀ metric text kind : String, [PromLine.help metric text,
        PromLine.type metric kind].filterMap PromLine.sample = [] := fun _ _ _ => rfl
    rw [promPods, MetricsSnapshot.podCounters, hguard]
    split_ifs
    · rfl
    · rw [List.filterMap_append, List.filterMap_append, List.filterMap_append, hpodEvents,
        hpodPackets, hnone, hnone, List.nil_append, List.append_nil, List.map_append]
  rw [promLines, List.filterMap_append, List.filterMap_append, hnode, hpods, ← List.map_append]
  rfl

/-- A metric is announced as a counter exactly if it is one of these. -/
theorem type_counter_iff (m : Metrics F) {metric kind : String}
    (h : PromLine.type metric kind ∈ m.promLines) : kind = "counter" ↔ metric ∈ counterNames := by
  have hnode (hmem : PromLine.type metric kind ∈ m.promNode) :
      kind = "counter" ∧ metric ∈ counterNames := by
    simp only [promNode, promEvents, List.cons_append, List.nil_append, List.mem_cons,
      List.mem_map, reduceCtorEq, false_or, PromLine.type.injEq, and_false, exists_false,
      or_false] at hmem
    rcases hmem with ⟨rfl, rfl⟩ | ⟨rfl, rfl⟩ | ⟨rfl, rfl⟩ <;> exact ⟨rfl, by decide⟩
  have hpods (hmem : PromLine.type metric kind ∈ m.promPods) :
      kind = "counter" ∧ metric ∈ counterNames := by
    rw [promPods] at hmem
    split_ifs at hmem
    · exact absurd hmem List.not_mem_nil
    · simp only [promPodEvents, promPodPackets, List.mem_append, List.mem_cons, List.mem_map,
        reduceCtorEq, false_or, PromLine.type.injEq, List.not_mem_nil, or_false, and_false,
        exists_false] at hmem
      rcases hmem with ⟨rfl, rfl⟩ | ⟨rfl, rfl⟩ <;> exact ⟨rfl, by decide⟩
  have hgauges (hmem : PromLine.type metric kind ∈ m.promGauges) :
      kind ≠ "counter" ∧ metric ∉ counterNames := by
    simp only [promGauges, List.mem_cons, reduceCtorEq, false_or, PromLine.type.injEq,
      List.not_mem_nil, or_false] at hmem
    rcases hmem with ⟨rfl, rfl⟩ | ⟨rfl, rfl⟩ | ⟨rfl, rfl⟩ | ⟨rfl, rfl⟩ <;>
      exact ⟨by decide, by decide⟩
  rw [promLines, List.mem_append, List.mem_append] at h
  rcases h with (h | h) | h
  · exact iff_of_true (hnode h).1 (hnode h).2
  · exact iff_of_true (hpods h).1 (hpods h).2
  · exact iff_of_false (hgauges h).1 (hgauges h).2

end Metrics

namespace MetricsSnapshot.GrowsTo

variable {s s' : MetricsSnapshot F} {metric : String} {labels : List (String × String)} {n : ℕ}

/-- What is told about pods is told again, no smaller. -/
theorem podCounters (h : s.GrowsTo s') (hn : (metric, labels, n) ∈ s.podCounters) :
    ∃ n', (metric, labels, n') ∈ s'.podCounters ∧ n ≤ n' := by
  rw [MetricsSnapshot.podCounters] at hn
  split_ifs at hn with hempty
  · exact absurd hn List.not_mem_nil
  -- some pod had an event, and still has
  have hopen : ¬ s'.podEventCounts.isEmpty = true := by
    rw [List.isEmpty_iff] at hempty ⊢
    obtain ⟨⟨ip, kind, severity, k⟩, hk⟩ := List.exists_mem_of_ne_nil _ hempty
    obtain ⟨k', hk', -⟩ := h.podEventCounts _ _ _ _ hk
    exact List.ne_nil_of_mem hk'
  rw [MetricsSnapshot.podCounters, if_neg hopen]
  rcases List.mem_append.1 hn with hn | hn
  · obtain ⟨⟨ip, kind, severity, k⟩, hk, heq⟩ := List.mem_map.1 hn
    simp only [Prod.mk.injEq] at heq
    obtain ⟨rfl, rfl, rfl⟩ := heq
    obtain ⟨n', hn', hle⟩ := h.podEventCounts _ _ _ _ hk
    exact ⟨n', List.mem_append_left _ (List.mem_map.2 ⟨_, hn', rfl⟩), hle⟩
  · obtain ⟨⟨ip, k⟩, hk, heq⟩ := List.mem_map.1 hn
    simp only [Prod.mk.injEq] at heq
    obtain ⟨rfl, rfl, rfl⟩ := heq
    obtain ⟨n', hn', hle⟩ := h.podPackets _ _ hk
    exact ⟨n', List.mem_append_right _ (List.mem_map.2 ⟨_, hn', rfl⟩), hle⟩

/-- Every counter is told again, no smaller. -/
theorem counters (h : s.GrowsTo s') (hn : (metric, labels, n) ∈ s.counters) :
    ∃ n', (metric, labels, n') ∈ s'.counters ∧ n ≤ n' := by
  simp only [MetricsSnapshot.counters, List.mem_cons, List.mem_append] at hn ⊢
  rcases hn with heq | heq | hn | hn
  · simp only [Prod.mk.injEq] at heq
    obtain ⟨rfl, rfl, rfl⟩ := heq
    exact ⟨s'.packetsTotal, Or.inl rfl, h.packetsTotal⟩
  · simp only [Prod.mk.injEq] at heq
    obtain ⟨rfl, rfl, rfl⟩ := heq
    exact ⟨s'.eventsTotal, Or.inr (Or.inl rfl), h.eventsTotal⟩
  · obtain ⟨⟨kind, severity, k⟩, hk, heq⟩ := List.mem_map.1 hn
    simp only [Prod.mk.injEq] at heq
    obtain ⟨rfl, rfl, rfl⟩ := heq
    obtain ⟨n', hn', hle⟩ := h.eventCounts _ _ _ hk
    exact ⟨n', Or.inr (Or.inr (Or.inl (List.mem_map.2 ⟨_, hn', rfl⟩))), hle⟩
  · obtain ⟨n', hn', hle⟩ := h.podCounters hn
    exact ⟨n', Or.inr (Or.inr (Or.inr hn')), hle⟩

/-- In the samples, too, the counters never fall. -/
theorem samples [F64 F] (h : s.GrowsTo s') {p : Exposition.Sample} (hp : p ∈ s.samples)
    (hcounter : p.IsCounter) : ∃ p' ∈ s'.samples, p.GrowsTo p' := by
  rcases List.mem_append.1 hp with hp | hp
  · obtain ⟨⟨metric, labels, n⟩, hc, rfl⟩ := List.mem_map.1 hp
    obtain ⟨n', hn', hle⟩ := h.counters hc
    exact ⟨_, List.mem_append_left _ (List.mem_map.2 ⟨_, hn', rfl⟩), rfl, rfl, n, n',
      readDecimal_toString n, readDecimal_toString n', hle⟩
  · -- no gauge is named like a counter
    have hnot : ∀ q ∈ s.gauges, q.1 ∉ counterNames := by
      simp only [MetricsSnapshot.gauges, List.forall_mem_cons]
      exact ⟨by decide, by decide, by decide, by decide, by simp⟩
    obtain ⟨q, hq, rfl⟩ := List.mem_map.1 hp
    rw [Exposition.Sample.IsCounter, String.ofList_toList] at hcounter
    exact absurd hcounter (hnot q hq)

end MetricsSnapshot.GrowsTo

namespace Registry

variable [F64 F]

/-- The labels of a registry: kinds, severities and the pods that were recorded. -/
theorem labels_after {P : String → Prop} (hkind : ∀ k : EventKind, P k.asStr)
    (hseverity : ∀ s : Severity, P s.asStr) {ops : List (RegistryOp F)}
    (hpackets : ∀ podIp ∈ ops.filterMap RegistryOp.packet?, ∀ ip ∈ podIp, P ip)
    (hevents : ∀ e ∈ ops.filterMap RegistryOp.event?, ∀ ip ∈ e.2, P ip) :
    (machine.after (Metrics.new F) ops).Labels P := by
  have htallies := after_tallies (F := F) ops
  have hmem {κ : Type} [LinearOrder κ] {l : List κ} {e : κ × ℕ}
      (he : e ∈ (Tally.of l).entries) : e.1 ∈ l := (Tally.mem_entries_of.1 he).1
  have hkey (ev : L4Event F) : P (ofLex (eventKey ev)).1 ∧ P (ofLex (eventKey ev)).2 :=
    ⟨hkind ev.kind, hseverity ev.severity⟩
  constructor
  · intro e he
    rw [htallies.eventCounts] at he
    obtain ⟨x, -, hx⟩ := List.mem_map.1 (hmem he)
    rw [← hx]
    exact hkey x.1
  · intro e he
    rw [htallies.podEventCounts] at he
    obtain ⟨⟨ev, podIp⟩, hx, hpod⟩ := List.mem_filterMap.1 (hmem he)
    cases podIp with
    | none => cases hpod
    | some ip =>
        rw [← Option.some.inj hpod]
        exact ⟨hevents _ hx ip rfl, hkey ev⟩
  · intro e he
    rw [htallies.podPackets] at he
    obtain ⟨podIp, hx, hpod⟩ := List.mem_filterMap.1 (hmem he)
    exact hpackets podIp hx e.1 hpod

end Registry

/-- The pod an event or a packet is attributed to is an address. -/
theorem Settings.exists_of_podIp {o : Settings} {key : FlowKey} {ip : String}
    (h : o.podIp key = some ip) : ∃ a : IpAddr, ip = toString a := by
  obtain ⟨m, -, hpod⟩ := Option.bind_eq_some_iff.1 h
  rw [PodMatcher.localPodIp] at hpod
  split_ifs at hpod
  · exact ⟨_, (Option.some.inj hpod).symm⟩
  · exact ⟨_, (Option.some.inj hpod).symm⟩

/-- The labels of the registry during a run of the agent. -/
theorem Setup.labels [F64 F] {ε : Type} [ToString ε] (s : Setup F ε) {P : String → Prop}
    (hkind : ∀ k : EventKind, P k.asStr) (hseverity : ∀ s : Severity, P s.asStr)
    (hip : ∀ a : IpAddr, P (toString a)) {ops pre : List (RegistryOp F)}
    (hops : s.agent.Interleaved ops) (hpre : pre <+: ops) :
    (Registry.machine.after (Metrics.new F) pre).Labels P := by
  have haccounts := s.accounts
  obtain ⟨post, rfl⟩ := hpre
  refine Registry.labels_after hkind hseverity ?_ ?_
  · intro podIp hpod ip hpodIp
    have hmem : podIp ∈ s.agent.registryOps.filterMap RegistryOp.packet? := by
      rw [← hops.filterMap rfl, List.filterMap_append]
      exact List.mem_append_left _ hpod
    rw [haccounts.recordedPackets] at hmem
    obtain ⟨p, -, hp⟩ := List.mem_map.1 hmem
    obtain ⟨a, rfl⟩ := Settings.exists_of_podIp (hp.trans hpodIp)
    exact hip a
  · intro e he ip hpodIp
    have hmem : e ∈ s.agent.registryOps.filterMap RegistryOp.event? := by
      rw [← hops.filterMap rfl, List.filterMap_append]
      exact List.mem_append_left _ he
    rw [haccounts.recordedEvents] at hmem
    obtain ⟨ev, -, rfl⟩ := List.mem_map.1 hmem
    obtain ⟨a, rfl⟩ := Settings.exists_of_podIp hpodIp
    exact hip a

/-! ## The counters in the text -/

/-- The counter a sample publishes. -/
def Exposition.Sample.series (s : Exposition.Sample) : Option (CounterSeries × ℕ) := do
  let n ← readDecimal s.value
  PromLine.series (.counter (String.ofList s.metric)
    (s.labels.map fun l => (String.ofList l.1, String.ofList l.2)) n)

namespace PromLine

/-- The series on the line of a counter. -/
theorem series_counter (metric : String) (labels : List (String × String)) (n : ℕ) :
    ((counter metric labels n).sample.bind Exposition.Sample.series)
      = (counter metric labels n).series := by
  have hlabels : (labels.map fun l => (l.1.toList, l.2.toList)).map
      (fun l => (String.ofList l.1, String.ofList l.2)) = labels := by
    rw [List.map_map]
    simp [Function.comp_def]
  have hsample : (counter metric labels n).sample
      = some ⟨metric.toList, labels.map fun l => (l.1.toList, l.2.toList), (toString n).toList⟩ :=
    rfl
  rw [hsample, Option.bind_some, Exposition.Sample.series]
  simp only [readDecimal_toString, Option.bind_eq_bind, Option.bind_some, hlabels,
    String.ofList_toList]

end PromLine

namespace Metrics

variable [F64 F]

omit [F64 F] in
/-- There is none on the line of a gauge. -/
theorem series_gauge {metric : String} (value : String)
    (h : ∀ n, (PromLine.counter metric [] n).series = none) :
    ((PromLine.gauge metric value).sample.bind Exposition.Sample.series)
      = (PromLine.gauge metric value).series := by
  have hsample : (PromLine.gauge metric value).sample = some ⟨metric.toList, [], value.toList⟩ :=
    rfl
  have hnone : (PromLine.gauge metric value).series = none := rfl
  rw [hsample, hnone, Option.bind_some, Exposition.Sample.series]
  cases readDecimal value.toList with
  | none => rfl
  | some n =>
      have hn := h n
      simpa using hn

/-- **The counters are read back off the samples.** -/
theorem filterMap_series (m : Metrics F) :
    (m.promLines.filterMap PromLine.sample).filterMap Exposition.Sample.series = m.promSeries := by
  have hnode : ∀ l ∈ m.promNode, l.sample.bind Exposition.Sample.series = l.series := by
    rw [promNode, promEvents, List.forall_mem_append, List.forall_mem_map]
    refine ⟨?_, fun e _ => PromLine.series_counter _ _ _⟩
    simp only [List.forall_mem_cons]
    exact ⟨rfl, rfl, PromLine.series_counter _ _ _, rfl, rfl, PromLine.series_counter _ _ _, rfl,
      rfl, by simp⟩
  have hpods : ∀ l ∈ m.promPods, l.sample.bind Exposition.Sample.series = l.series := by
    rw [promPods]
    split_ifs
    · simp
    · simp only [promPodEvents, promPodPackets, List.forall_mem_append, List.forall_mem_cons,
        List.forall_mem_map]
      exact ⟨⟨⟨⟨rfl, rfl, by simp⟩, fun e _ => PromLine.series_counter _ _ _⟩, rfl, rfl, by simp⟩,
        fun e _ => PromLine.series_counter _ _ _⟩
  have hgauges : ∀ l ∈ m.promGauges, l.sample.bind Exposition.Sample.series = l.series := by
    rw [promGauges]
    simp only [List.forall_mem_cons]
    exact ⟨rfl, rfl, series_gauge _ fun _ => rfl, rfl, rfl, series_gauge _ fun _ => rfl, rfl, rfl,
      series_gauge _ fun _ => rfl, rfl, rfl, series_gauge _ fun _ => rfl, by simp⟩
  rw [List.filterMap_filterMap, promSeries]
  apply List.filterMap_congr
  rw [promLines, List.forall_mem_append, List.forall_mem_append]
  exact ⟨⟨hnode, hpods⟩, hgauges⟩

end Metrics
