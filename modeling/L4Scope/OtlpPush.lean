/-
# The OTLP push

`parse_target` takes the Collector's address and the additional headers from the configuration,
and `post` writes the request and looks at the status of the reply.

A request is one message for the Collector: it is read back with its path, its headers and all of
its body, which is read back in turn as the snapshot of the registry (`Otlp.push_received`).  A
configuration cannot break a line of it, since its texts hold no LF.
-/
import L4Scope.ConfigTexts
import L4Scope.MetricsServer
import L4Scope.OtlpJson
import L4Scope.ResourceAttrs

variable {F ε : Type}

/-! ## The target -/

/-- `s.rsplit_once(c)`. -/
def rsplitOnce (c : Char) (s : List Char) : Option (List Char × List Char) :=
  (splitOnce c s.reverse).map fun r => (r.2.reverse, r.1.reverse)

/-- `s.strip_prefix(p)`. -/
def stripPrefix (p s : List Char) : Option (List Char) :=
  if p <+: s then some (s.drop p.length) else none

namespace Otlp

/-- Where a push goes, and the headers it takes along. -/
structure Target where
  host : String
  port : ℕ
  path : String
  headers : List (String × String)
  deriving DecidableEq

/-- The additional headers, `k=v,k=v`. -/
def parseHeaders (s : List Char) : List (String × String) :=
  ((s.splitOn ',').filterMap (splitOnce '=')).map fun kv =>
    (String.ofList (trim kv.1), String.ofList (trim kv.2))

/-- The host and the port of an authority. -/
def hostPort (authority : List Char) : List Char × ℕ :=
  match rsplitOnce ':' authority with
  | some (h, p) => (h, (parseUnsigned 16 p).getD 4318)
  | none => (authority, 4318)

/-- The target behind the scheme; the path behind the authority is ignored. -/
def targetAt (cfg : OtlpConfig) (rest : List Char) : Except String Target :=
  let (host, port) := hostPort (rest.takeWhile (· ≠ '/'))
  if host = [] then .error "config error: otlp endpoint has no host"
  else .ok ⟨String.ofList host, port, cfg.path, parseHeaders cfg.headers.toList⟩

/-- `parse_target`. -/
def parseTarget (cfg : OtlpConfig) : Except String Target :=
  let ep := trim cfg.endpoint.toList
  match stripPrefix "http://".toList ep with
  | some rest => targetAt cfg rest
  | none =>
    if "https://".toList <+: ep then
      .error ("config error: otlp endpoint must be http:// "
        ++ "(run a node-local Collector for TLS/cloud)")
    else targetAt cfg ep

/-! ## The request -/

/-- The headers that are sent. -/
def Target.sent (t : Target) : List (String × String) := t.headers.filter fun h => h.1 ≠ ""

/-- The head of the request, with the empty line behind it. -/
def requestHead (t : Target) (size : ℕ) : String :=
  s!"POST {t.path} HTTP/1.1\r\n" ++ s!"Host: {t.host}:{t.port}\r\n"
    ++ "Content-Type: application/json\r\n" ++ s!"Content-Length: {size}\r\n"
    ++ String.join (t.sent.map fun h => s!"{h.1}: {h.2}\r\n") ++ "Connection: close\r\n\r\n"

/-- What `post` writes. -/
def request (t : Target) (body : String) : Bytes :=
  utf8 (requestHead t body.utf8ByteSize) ++ utf8 body

/-! ## The request as a message -/

namespace Target

/-- No additional header takes the place of another: their names are without a colon, and do not
announce a length. -/
def Named (t : Target) : Prop :=
  ∀ h ∈ t.headers, ':' ∉ h.1.toList ∧ Http.isLength (utf8 h.1, []) = false

instance (t : Target) : Decidable t.Named := List.decidableBAll _ t.headers

/-- The request as a message. -/
def message (t : Target) (body : String) : Http.Message where
  start := utf8 ("POST " ++ t.path ++ " HTTP/1.1")
  fields := [(utf8 "Host", utf8 (t.host ++ ":" ++ toString t.port)),
      (utf8 "Content-Type", utf8 "application/json"),
      (utf8 "Content-Length", utf8 (toString body.utf8ByteSize))]
    ++ t.sent.map (fun h => (utf8 h.1, utf8 h.2)) ++ [(utf8 "Connection", utf8 "close")]
  body := utf8 body

end Target

/-- The request is a message. -/
theorem request_eq (t : Target) (body : String) : request t body = (t.message body).encode := by
  have hstring (s : String) : toString s = s := rfl
  have hjoin (l : List String) : utf8 (String.join l) = l.flatMap utf8 := by
    induction l with
    | nil => decide
    | cons s l ih => rw [String.join_cons, utf8_append, ih, List.flatMap_cons]
  have hend : utf8 "\r\n" = [13, 10] := by decide
  have hline : utf8 " HTTP/1.1\r\n" = utf8 " HTTP/1.1" ++ [13, 10] := by decide
  have hhost : utf8 "Host: " = utf8 "Host" ++ [58, 32] := by decide
  have htype : utf8 "Content-Type: application/json\r\n"
      = utf8 "Content-Type" ++ ([58, 32] ++ (utf8 "application/json" ++ [13, 10])) := by decide
  have hlength : utf8 "Content-Length: " = utf8 "Content-Length" ++ [58, 32] := by decide
  have hclose : utf8 "Connection: close\r\n\r\n"
      = utf8 "Connection" ++ ([58, 32] ++ (utf8 "close" ++ [13, 10, 13, 10])) := by decide
  have hcolon : utf8 ": " = [58, 32] := by decide
  simp only [request, requestHead, hstring, utf8_append, hjoin, List.flatMap_map, hend, hline,
    hhost, htype, hlength, hclose, hcolon]
  simp [Target.message, Http.Message.encode, Http.Message.encodeField, utf8_append,
    List.flatMap_map]

end Otlp

namespace Otlp

/-- Its fields are clean. -/
theorem Target.message_ok {t : Target} (hnamed : t.Named) (hpath : '\n' ∉ t.path.toList)
    (hhost : '\n' ∉ t.host.toList)
    (hheaders : ∀ h ∈ t.headers, '\n' ∉ h.1.toList ∧ '\n' ∉ h.2.toList) (body : String) :
    (t.message body).Ok := by
  have hfree {s : String} (hs : '\n' ∉ s.toList) : 10 ∉ utf8 s := fun hmem =>
    hs (mem_of_mem_utf8 hmem (by decide))
  have hdigits (n : ℕ) : '\n' ∉ (toString n).toList := (NoBreak.nat n).1
  have hauthority : '\n' ∉ (t.host ++ ":" ++ toString t.port).toList := by
    rw [String.toList_append, String.toList_append, List.mem_append, List.mem_append]
    rintro ((hmem | hmem) | hmem)
    · exact hhost hmem
    · exact absurd hmem (by decide)
    · exact hdigits _ hmem
  have hsent {h : String × String} (hmem : h ∈ t.sent) : h ∈ t.headers :=
    List.mem_of_mem_filter hmem
  constructor
  · exact hfree (by simp [hpath])
  · simp only [message, List.forall_mem_append, List.forall_mem_map, List.forall_mem_cons]
    refine ⟨⟨⟨by decide, by decide, by decide, by simp⟩, fun h hh => ?_⟩, by decide, by simp⟩
    refine ⟨hfree (hheaders h (hsent hh)).1, fun hmem => ?_⟩
    exact (hnamed h (hsent hh)).1 (mem_of_mem_utf8 hmem (by decide))
  · simp only [message, List.forall_mem_append, List.forall_mem_map, List.forall_mem_cons]
    refine ⟨⟨⟨hfree hauthority, by decide, hfree (hdigits _), by simp⟩,
      fun h hh => hfree (hheaders h (hsent hh)).2⟩, by decide, by simp⟩
  · have hsize : body.utf8ByteSize = (utf8 body).length := by simp [utf8]
    have hname (name value : Bytes) (h : Http.lower name ≠ utf8 "content-length") :
        Http.isLength (name, value) = false := decide_eq_false h
    have hlength (value : Bytes) : Http.isLength (utf8 "Content-Length", value) = true :=
      (by decide : decide (Http.lower (utf8 "Content-Length") = utf8 "content-length") = true)
    have hadditional : (t.sent.map fun h => (utf8 h.1, utf8 h.2)).filter Http.isLength = [] := by
      rw [List.filter_eq_nil_iff, List.forall_mem_map]
      intro h hh
      have hnot : Http.isLength (utf8 h.1, []) = false := (hnamed h (hsent hh)).2
      have hsame : Http.isLength (utf8 h.1, utf8 h.2) = Http.isLength (utf8 h.1, []) := rfl
      rw [hsame, hnot]
      decide
    have hfilter : (t.message body).fields.filter Http.isLength
        = [(utf8 "Content-Length", utf8 (toString body.utf8ByteSize))] := by
      rw [message, List.filter_append, List.filter_append, hadditional,
        List.filter_cons_of_neg (by rw [hname _ _ (by decide)]; decide),
        List.filter_cons_of_neg (by rw [hname _ _ (by decide)]; decide),
        List.filter_cons_of_pos (hlength _), List.filter_nil,
        List.filter_cons_of_neg (by rw [hname _ _ (by decide)]; decide)]
      rfl
    have hlen : readDecimal (latin (utf8 (toString (utf8 body).length)))
        = some (utf8 body).length := by
      rw [latin_toString, readDecimal_toString]
    rw [Http.bodyLength, hfilter, hsize]
    exact hlen

/-! ## What a configuration gives -/

/-- Splitting adds nothing. -/
theorem mem_of_mem_splitOn {sep c : Char} {s piece : List Char} (h : piece ∈ s.splitOn sep)
    (hc : c ∈ piece) : c ∈ s := by
  induction s generalizing piece with
  | nil =>
      obtain rfl := List.mem_singleton.1 h
      exact hc
  | cons x s ih =>
      rw [List.splitOn_cons_eq_if_modifyHead] at h
      split_ifs at h
      · rcases List.mem_cons.1 h with rfl | h
        · cases hc
        · exact List.mem_cons_of_mem x (ih h hc)
      · cases hsplit : s.splitOn sep with
        | nil => exact absurd hsplit (List.splitOn_ne_nil sep s)
        | cons first rest =>
            rw [hsplit, List.modifyHead_cons] at h
            rw [hsplit] at ih
            rcases List.mem_cons.1 h with rfl | h
            · rcases List.mem_cons.1 hc with rfl | hc
              · exact List.mem_cons_self
              · exact List.mem_cons_of_mem x (ih List.mem_cons_self hc)
            · exact List.mem_cons_of_mem x (ih (List.mem_cons_of_mem first h) hc)

/-- Key and value of an item are parts of it. -/
theorem mem_of_mem_splitOnce {c x : Char} {s k v : List Char} (h : splitOnce c s = some (k, v)) :
    (x ∈ trim k → x ∈ s) ∧ (x ∈ trim v → x ∈ s) := by
  obtain ⟨rfl, -⟩ := splitOnce_eq_some_iff.1 h
  exact ⟨fun hx => List.mem_append_left _ (mem_of_mem_trim hx),
    fun hx => List.mem_append_right _ (List.mem_cons_of_mem _ (mem_of_mem_trim hx))⟩

/-- The additional headers are parts of the configured list. -/
theorem mem_of_mem_parseHeaders {s : List Char} {h : String × String} (hh : h ∈ parseHeaders s)
    {c : Char} : (c ∈ h.1.toList → c ∈ s) ∧ (c ∈ h.2.toList → c ∈ s) := by
  obtain ⟨⟨k, v⟩, hkv, rfl⟩ := List.mem_map.1 hh
  obtain ⟨item, hitem, hsplit⟩ := List.mem_filterMap.1 hkv
  have hparts := mem_of_mem_splitOnce hsplit (x := c)
  simp only [String.toList_ofList]
  exact ⟨fun hc => mem_of_mem_splitOn hitem (hparts.1 hc),
    fun hc => mem_of_mem_splitOn hitem (hparts.2 hc)⟩

/-- Nor does splitting from the right. -/
theorem mem_of_rsplitOnce {c x : Char} {s h p : List Char} (hs : rsplitOnce c s = some (h, p))
    (hx : x ∈ h) : x ∈ s := by
  obtain ⟨⟨a, b⟩, hsplit, heq⟩ := Option.map_eq_some_iff.1 hs
  obtain ⟨rfl, rfl⟩ := Prod.mk.inj heq
  obtain ⟨hrev, -⟩ := splitOnce_eq_some_iff.1 hsplit
  rw [← List.mem_reverse, hrev]
  exact List.mem_append_right _ (List.mem_cons_of_mem _ (List.mem_reverse.1 hx))

/-- The host is part of the authority. -/
theorem mem_of_mem_hostPort {authority : List Char} {c : Char} (h : c ∈ (hostPort authority).1) :
    c ∈ authority := by
  rw [hostPort] at h
  split at h
  case h_1 host port hsplit => exact mem_of_rsplitOnce hsplit h
  case h_2 => exact h

/-- Where the target comes from. -/
theorem targetAt_ok {cfg : OtlpConfig} {rest : List Char} {t : Target}
    (h : targetAt cfg rest = .ok t) : (∀ c ∈ t.host.toList, c ∈ rest) ∧ t.path = cfg.path ∧
      t.headers = parseHeaders cfg.headers.toList := by
  unfold targetAt at h
  dsimp only at h
  split_ifs at h
  obtain rfl := Except.ok.inj h
  refine ⟨fun c hc => ?_, rfl, rfl⟩
  rw [String.toList_ofList] at hc
  exact (List.takeWhile_sublist _).subset (mem_of_mem_hostPort hc)

/-- The parts of a target are parts of the configuration. -/
theorem parseTarget_ok {cfg : OtlpConfig} {t : Target} (h : parseTarget cfg = .ok t) :
    (∀ c ∈ t.host.toList, c ∈ cfg.endpoint.toList) ∧ t.path = cfg.path ∧
      t.headers = parseHeaders cfg.headers.toList := by
  have hmem {rest : List Char} (hrest : ∀ c ∈ rest, c ∈ trim cfg.endpoint.toList)
      (ht : targetAt cfg rest = .ok t) : (∀ c ∈ t.host.toList, c ∈ cfg.endpoint.toList) ∧
        t.path = cfg.path ∧ t.headers = parseHeaders cfg.headers.toList := by
    obtain ⟨hhost, hparts⟩ := targetAt_ok ht
    exact ⟨fun c hc => mem_of_mem_trim (hrest c (hhost c hc)), hparts⟩
  unfold parseTarget at h
  dsimp only at h
  split at h
  case h_1 rest hstrip =>
    refine hmem (fun c hc => ?_) h
    unfold stripPrefix at hstrip
    split_ifs at hstrip
    rw [← Option.some.inj hstrip] at hc
    exact List.mem_of_mem_drop hc
  case h_2 =>
    split_ifs at h
    exact hmem (fun c hc => hc) h

section Attributes

variable {P : Char → Prop}

/-- The characters of some attributes have the property. -/
def Made (P : Char → Prop) (pairs : List (String × String)) : Prop :=
  ∀ p ∈ pairs, (∀ c ∈ p.1.toList, P c) ∧ ∀ c ∈ p.2.toList, P c

/-- One more attribute. -/
theorem Made.concat {pairs : List (String × String)} (h : Made P pairs) {p : String × String}
    (hp : (∀ c ∈ p.1.toList, P c) ∧ ∀ c ∈ p.2.toList, P c) : Made P (pairs ++ [p]) := by
  rw [Made, List.forall_mem_append, List.forall_mem_singleton]
  exact ⟨h, hp⟩

/-- Attributes that are made of a list. -/
theorem made_pushKvList {pairs : List (String × String)} (h : Made P pairs) {s : List Char}
    (hs : ∀ c ∈ s, P c) : Made P (pushKvList pairs s) := by
  have hpieces : ∀ piece ∈ s.splitOn ',', ∀ c ∈ piece, P c := fun piece hpiece c hc =>
    hs c (mem_of_mem_splitOn hpiece hc)
  unfold pushKvList
  generalize s.splitOn ',' = pieces at hpieces
  induction pieces generalizing pairs with
  | nil => exact h
  | cons kv pieces ih =>
      obtain ⟨hkv, hpieces⟩ := List.forall_mem_cons.1 hpieces
      rw [List.foldl_cons]
      cases hsplit : splitOnce '=' kv with
      | none => exact ih h hpieces
      | some r =>
          obtain ⟨k, v⟩ := r
          have hparts {c : Char} := mem_of_mem_splitOnce hsplit (x := c)
          by_cases hk : trim k = []
          · simpa only [if_pos hk] using ih h hpieces
          · have hpair := h.concat (p := (String.ofList (trim k), String.ofList (trim v)))
              (by simpa only [String.toList_ofList] using
                ⟨fun c hc => hkv c (hparts.1 hc), fun c hc => hkv c (hparts.2 hc)⟩)
            simpa only [if_neg hk] using ih hpair hpieces

/-- Attributes that are made of the environment. -/
theorem made_pushEnv {env : Environment} {pairs : List (String × String)} (h : Made P pairs)
    (hmap : ∀ e ∈ envMap, ∀ c ∈ e.2.toList, P c)
    (henv : ∀ name val, env name = some val → ∀ c ∈ val.toList, P c) :
    Made P (pushEnv env pairs) := by
  unfold pushEnv
  generalize envMap = entries at hmap
  induction entries generalizing pairs with
  | nil => exact h
  | cons e entries ih =>
      obtain ⟨he, hmap⟩ := List.forall_mem_cons.1 hmap
      rw [List.foldl_cons]
      cases hval : env e.1 with
      | none => exact ih h hmap
      | some val =>
          by_cases hempty : val = ""
          · simpa only [if_pos hempty] using ih h hmap
          · have hpair := h.concat (p := (e.2, val)) ⟨he, henv _ _ hval⟩
            simpa only [if_neg hempty] using ih hpair hmap

/-- Resource attributes are made of the characters of the configuration, the environment and the
attributes' names. -/
theorem made_buildResourceAttrs {env : Environment} {cfg : OtlpConfig}
    (hnames : ∀ c ∈ "service.name".toList, P c) (hmap : ∀ e ∈ envMap, ∀ c ∈ e.2.toList, P c)
    (hservice : ∀ c ∈ cfg.serviceName.toList, P c)
    (hattrs : ∀ c ∈ cfg.resourceAttributes.toList, P c)
    (henv : ∀ name val, env name = some val → ∀ c ∈ val.toList, P c) :
    Made P (buildResourceAttrs env cfg) := by
  have hfirst : Made P [("service.name", cfg.serviceName)] :=
    List.forall_mem_singleton.2 ⟨hnames, hservice⟩
  have hconfigured := made_pushKvList (made_pushEnv hfirst hmap henv) hattrs
  rw [buildResourceAttrs]
  split
  case h_1 s hotel => exact made_pushKvList hconfigured (henv _ s hotel)
  case h_2 => exact hconfigured

end Attributes

/-! ## What the Collector receives -/

/-- A character that the body can carry. -/
def Carried (c : Char) : Prop := 0x20 ≤ c.toNat ∨ c = '\n' ∨ c = '\r' ∨ c = '\t'

instance (c : Char) : Decidable (Carried c) := by unfold Carried; infer_instance

/-- A text of one line that the body can carry. -/
def CarriedLine (s : List Char) : Prop := ∀ c ∈ s, c ≠ '\n' ∧ Carried c

instance (s : List Char) : Decidable (CarriedLine s) := List.decidableBAll _ s

/-- All texts of the body are covered. -/
theorem texts_covered {m : Metrics F} {pairs : List (String × String)}
    (hlabels : m.Labels fun s => EscCovers s.toList) (hpairs : Made Carried pairs) :
    ∀ s ∈ texts m.snapshot pairs, EscCovers s.toList := by
  simp only [texts, List.forall_mem_append, List.forall_mem_flatMap, List.forall_mem_map]
  refine ⟨⟨⟨fun p hp => ?_, ?_⟩, ?_⟩, ?_⟩
  · exact List.forall_mem_cons.2 ⟨(hpairs p hp).1, List.forall_mem_singleton.2 (hpairs p hp).2⟩
  · refine List.forall_mem_map.2 fun e he => ?_
    exact List.forall_mem_cons.2 ⟨(hlabels.events e he).1,
      List.forall_mem_singleton.2 (hlabels.events e he).2⟩
  · refine List.forall_mem_map.2 fun e he => ?_
    obtain ⟨hip, hkind, hseverity⟩ := hlabels.podEvents e he
    exact List.forall_mem_cons.2 ⟨hip, List.forall_mem_cons.2 ⟨hkind,
      List.forall_mem_singleton.2 hseverity⟩⟩
  · exact hlabels.podPackets

/-- The default texts are plain. -/
theorem default_texts [F64 F] (f : ConfigField) :
    f.type.Texts (fun c => c ≠ '\n' ∧ Carried c) (f.get (Config.default F)) := by
  cases f
  case interface | pcapPath | liveCommand | headers | resourceAttributes | podCidrs =>
    exact fun c hc => absurd hc List.not_mem_nil
  case filter => exact (by decide : CarriedLine "tcp or udp".toList)
  case prometheusAddr =>
    exact (by decide : CarriedLine "127.0.0.1:9560".toList)
  case jsonEvents => exact (by decide : CarriedLine "stdout".toList)
  case endpoint =>
    exact (by decide : CarriedLine "http://localhost:4318".toList)
  case path => exact (by decide : CarriedLine "/v1/metrics".toList)
  case serviceName => exact (by decide : CarriedLine "l4scope".toList)
  all_goals trivial

end Otlp

namespace Sample

/-- A Collector with a tenant header, and a path behind the authority. -/
def pushText : List Char :=
  "[otlp]\nenabled = true\nendpoint = \"http://collector:4319/otlp\"\nheaders = \"x-tenant=a b, =c\"".toList

/-- The configuration it gives. -/
def pushConfig : Config ℚ :=
  { Config.default ℚ with
    otlp := { (Config.default ℚ).otlp with
      enabled := true
      endpoint := "http://collector:4319/otlp"
      headers := "x-tenant=a b, =c" } }

/-- The target of the configuration. -/
def pushTarget : Otlp.Target where
  host := "collector"
  port := 4319
  path := "/v1/metrics"
  headers := [("x-tenant", "a b"), ("", "c")]

/-- A node with a name. -/
def nodeEnv : Environment := fun name => if name = "K8S_NODE_NAME" then some "node-1" else none

/-- Whole numbers are displayed as they are. -/
@[reducible] def wholeDisplay : F64Display ℚ where
  display q := .decimal (decide (q < 0)) q.num.natAbs []

end Sample
