/-
# The metrics server

`handle_conn` of `http.rs`: it reads the request line, drains the header lines, and answers with
the registry's Prometheus text, a health check or an error.  Connections are served one after
another, between the operations on the registry.

A client that asks for the metrics reads one framed answer, whatever it sends after the empty
line; the samples in it are the registry's counters at that moment, and they never fall from one
answer to a later one (`Server.scrapes`).
-/
import L4Scope.ConfigText
import L4Scope.PrometheusText

variable {F ε : Type}

/-! ## Reading lines -/

/-- What a connection brings: the bytes the client sends, and the failure of the read after them,
if it does not find their end. -/
structure Conn (ε : Type) where
  bytes : Bytes
  failure : Option ε

/-- Why a line is not read. -/
inductive LineError (ε : Type) where
  | failed (e : ε)
  | invalidData

namespace Conn

/-- The bytes of a line must be valid UTF-8. -/
def decode (b : Bytes) : Except (LineError ε) String :=
  match readUtf8 b with
  | some s => .ok s
  | none => .error .invalidData

/-- `read_line`: a line with its LF, or what is left at the end. -/
def readLine (c : Conn ε) : Except (LineError ε) (String × Conn ε) :=
  match c.bytes.dropWhile (· ≠ 10) with
  | lf :: rest => do
    let line ← decode (c.bytes.takeWhile (· ≠ 10) ++ [lf])
    return (line, { c with bytes := rest })
  | [] =>
    match c.failure with
    | some e => .error (.failed e)
    | none => do
      let line ← decode c.bytes
      return (line, { c with bytes := [] })

/-- The bytes of a text are decoded. -/
theorem decode_utf8 (s : String) : decode (ε := ε) (utf8 s) = .ok s := by
  rw [decode, readUtf8_utf8]

/-- A line that is not empty takes bytes off the connection. -/
theorem length_readLine {c c' : Conn ε} {line : String} (h : c.readLine = .ok (line, c'))
    (hline : line ≠ "") : c'.bytes.length < c.bytes.length := by
  rw [readLine] at h
  split at h
  case h_1 lf rest hdrop =>
    -- the rest is what stands behind the LF
    have hlen : (c.bytes.dropWhile (· ≠ 10)).length ≤ c.bytes.length :=
      (List.dropWhile_sublist _).length_le
    rw [hdrop, List.length_cons] at hlen
    cases hdecode : decode (ε := ε) (c.bytes.takeWhile (· ≠ 10) ++ [lf]) with
    | error e =>
        rw [hdecode] at h
        cases h
    | ok l =>
        rw [hdecode] at h
        obtain ⟨rfl, rfl⟩ := Prod.mk.inj (Except.ok.inj h)
        exact hlen
  case h_2 hdrop =>
    split at h
    · cases h
    · cases hdecode : decode (ε := ε) c.bytes with
      | error e =>
          rw [hdecode] at h
          cases h
      | ok l =>
          rw [hdecode] at h
          obtain ⟨rfl, rfl⟩ := Prod.mk.inj (Except.ok.inj h)
          refine List.length_pos_iff.2 fun hnil => hline ?_
          rw [hnil] at hdecode
          exact Except.ok.inj (hdecode.symm.trans (decode_utf8 ""))

/-- Drain the header lines, up to the empty one or the end. -/
def drain (c : Conn ε) : Except (LineError ε) Unit :=
  match _h : c.readLine with
  | .error e => .error e
  | .ok (line, c') =>
    if line = "" ∨ line = "\r\n" ∨ line = "\n" then .ok () else drain c'
termination_by c.bytes.length
decreasing_by
  exact length_readLine _h (by tauto)

/-- The loop over the header lines, one line taken off. -/
theorem drain_eq (c : Conn ε) : c.drain = match c.readLine with
    | .error e => .error e
    | .ok (line, c') => if line = "" ∨ line = "\r\n" ∨ line = "\n" then .ok () else drain c' := by
  rw [drain]
  split <;> simp_all

end Conn

/-! ## Answering -/

/-- `s.split_whitespace()`. -/
def splitWhitespace (s : List Char) : List (List Char) :=
  (s.splitOnP isWhitespace).filter fun word => word ≠ []

namespace Server

variable [F64 F]

/-- The path of a request line. -/
def path (requestLine : String) : String :=
  match (splitWhitespace requestLine.toList)[1]? with
  | some word => String.ofList word
  | none => "/"

/-- The status, the content type and the body for a path. -/
def respond (m : Metrics F) (path : String) : String × String × String :=
  if "/metrics".toList <+: path.toList then
    ("200 OK", "text/plain; version=0.0.4", m.renderPrometheus)
  else if "/healthz".toList <+: path.toList then ("200 OK", "text/plain", "ok\n")
  else ("404 Not Found", "text/plain", "not found\n")

/-- The answer that is written. -/
def response (r : String × String × String) : Bytes :=
  utf8 (s!"HTTP/1.1 {r.1}\r\nContent-Type: {r.2.1}\r\nContent-Length: {r.2.2.utf8ByteSize}\r\n"
    ++ s!"Connection: close\r\n\r\n{r.2.2}")

/-- `handle_conn`. -/
def handleConn (m : Metrics F) (c : Conn ε) : Except (LineError ε) Bytes := do
  let (requestLine, c) ← c.readLine
  c.drain
  return response (respond m (path requestLine))

end Server

/-! ## A client's request -/

/-- A request: the words of the request line, and the header fields. -/
structure Request where
  method : String
  path : String
  version : String
  headers : List (String × String)

namespace Request

/-- A word of the request line. -/
def IsWord (s : String) : Prop := s ≠ "" ∧ ∀ c ∈ s.toList, isWhitespace c = false

instance (s : String) : Decidable (IsWord s) :=
  @instDecidableAnd _ _ _ (List.decidableBAll _ s.toList)

/-- Words on the request line, and clean header fields. -/
structure Ok (q : Request) : Prop where
  method : IsWord q.method
  path : IsWord q.path
  version : '\n' ∉ q.version.toList
  headers : ∀ f ∈ q.headers, '\n' ∉ f.1.toList ∧ '\n' ∉ f.2.toList

/-- The request line. -/
def line (q : Request) : String := q.method ++ " " ++ q.path ++ " " ++ q.version ++ "\r"

/-- The line of a header field. -/
def headerLine (f : String × String) : String := f.1 ++ ": " ++ f.2 ++ "\r"

/-- The lines of the request, the last one empty. -/
def encode (q : Request) : Bytes :=
  (q.line :: q.headers.map headerLine ++ ["\r"]).flatMap fun l => utf8 l ++ [10]

end Request

namespace Conn

/-- A line is read up to its break. -/
theorem readLine_append {l : String} (h : '\n' ∉ l.toList) (rest : Bytes) (failure : Option ε) :
    readLine ⟨utf8 l ++ 10 :: rest, failure⟩ = .ok (l ++ "\n", ⟨rest, failure⟩) := by
  have hplain : ∀ b ∈ utf8 l, decide (b ≠ 10) = true := by
    intro b hb
    rw [decide_eq_true_eq]
    rintro rfl
    exact h (mem_of_mem_utf8 hb (by decide))
  have hend : utf8 l ++ [10] = utf8 (l ++ "\n") := (utf8_append l "\n").symm
  rw [readLine]
  simp only
  rw [List.dropWhile_append_of_pos hplain, List.takeWhile_append_of_pos hplain]
  simp [hend, decode_utf8]

/-- The header lines are drained, whatever follows the empty one. -/
theorem drain_headers {hs : List (String × String)}
    (h : ∀ f ∈ hs, '\n' ∉ f.1.toList ∧ '\n' ∉ f.2.toList) (rest : Bytes) (failure : Option ε) :
    drain ⟨(hs.map Request.headerLine ++ ["\r"]).flatMap (fun l => utf8 l ++ [10]) ++ rest, failure⟩
      = .ok () := by
  induction hs with
  | nil =>
      have hread := readLine_append (l := "\r") (by decide) rest failure
      have hbytes : ([].map Request.headerLine ++ ["\r"]).flatMap (fun l => utf8 l ++ [10]) ++ rest
          = utf8 "\r" ++ 10 :: rest := by simp
      rw [hbytes, drain_eq, hread]
      rfl
  | cons f hs ih =>
      obtain ⟨⟨hname, hvalue⟩, hs'⟩ := List.forall_mem_cons.1 h
      have hline : '\n' ∉ (Request.headerLine f).toList := by
        simp [Request.headerLine, hname, hvalue]
      -- a header line has a colon, so it is none of the lines that end the header
      have hcolon : ':' ∈ (Request.headerLine f ++ "\n").toList := by
        simp [Request.headerLine]
      have hnot : ¬ (Request.headerLine f ++ "\n" = "" ∨ Request.headerLine f ++ "\n" = "\r\n" ∨
          Request.headerLine f ++ "\n" = "\n") := by
        rintro (heq | heq | heq) <;> rw [heq] at hcolon <;> revert hcolon <;> decide
      have hbytes : ((f :: hs).map Request.headerLine ++ ["\r"]).flatMap (fun l => utf8 l ++ [10])
          ++ rest = utf8 (Request.headerLine f) ++ 10 ::
            ((hs.map Request.headerLine ++ ["\r"]).flatMap (fun l => utf8 l ++ [10]) ++ rest) := by
        simp
      rw [hbytes, drain_eq, readLine_append hline]
      simp only [if_neg hnot]
      exact ih hs'

end Conn

namespace Server

variable [F64 F]

omit [F64 F] in
/-- The path is read off the request line. -/
theorem path_line {q : Request} (h : q.Ok) : path (q.line ++ "\n") = q.path := by
  obtain ⟨hmethod, hmethodWord⟩ := h.method
  obtain ⟨hpath, hpathWord⟩ := h.path
  have hchars : (q.line ++ "\n").toList = q.method.toList ++ ' ' :: (q.path.toList ++ ' ' ::
      (q.version.toList ++ ['\r', '\n'])) := by
    simp [Request.line]
  have hwords : (splitWhitespace (q.line ++ "\n").toList)[1]? = some q.path.toList := by
    rw [splitWhitespace, hchars,
      List.splitOnP_append_cons_of_forall_mem hmethodWord ' ' (by decide),
      List.splitOnP_append_cons_of_forall_mem hpathWord ' ' (by decide)]
    simp [hmethod, hpath]
  rw [path, hwords]
  exact String.ofList_toList

/-- **A request is answered by its path**, whatever follows the empty line. -/
theorem handleConn_request (m : Metrics F) {q : Request} (h : q.Ok) (rest : Bytes)
    (failure : Option ε) :
    handleConn m ⟨q.encode ++ rest, failure⟩ = .ok (response (respond m q.path)) := by
  have hline : '\n' ∉ q.line.toList := by
    have hword {s : String} (hs : Request.IsWord s) : '\n' ∉ s.toList := fun hmem =>
      absurd (hs.2 _ hmem) (by decide)
    simp [Request.line, hword h.method, hword h.path, h.version]
  have hbytes : q.encode ++ rest = utf8 q.line ++ 10 ::
      ((q.headers.map Request.headerLine ++ ["\r"]).flatMap (fun l => utf8 l ++ [10]) ++ rest) := by
    simp [Request.encode]
  rw [handleConn, hbytes, Conn.readLine_append hline]
  simp only [bind, Except.bind]
  rw [Conn.drain_headers h.headers, path_line h]
  rfl

/-- What is answered at all is the answer to some path. -/
theorem handleConn_ok {m : Metrics F} {c : Conn ε} {answer : Bytes}
    (h : handleConn m c = .ok answer) : ∃ path, answer = response (respond m path) := by
  rw [handleConn] at h
  cases hline : c.readLine with
  | error e =>
      rw [hline] at h
      cases h
  | ok r =>
      cases hdrain : r.2.drain with
      | error e =>
          rw [hline] at h
          simp only [bind, Except.bind, hdrain] at h
          cases h
      | ok u =>
          rw [hline] at h
          simp only [bind, Except.bind, hdrain] at h
          exact ⟨path r.1, (Except.ok.inj h).symm⟩

/-! ## The answer on the wire -/

/-- The answer as a message. -/
def message (r : String × String × String) : Http.Message where
  start := utf8 ("HTTP/1.1 " ++ r.1)
  fields := [(utf8 "Content-Type", utf8 r.2.1),
    (utf8 "Content-Length", utf8 (toString r.2.2.utf8ByteSize)), (utf8 "Connection", utf8 "close")]
  body := utf8 r.2.2

omit [F64 F] in
/-- The response is a message. -/
theorem response_eq (r : String × String × String) : response r = (message r).encode := by
  have hstring (s : String) : toString s = s := rfl
  have htype : utf8 "\r\nContent-Type: " = [13, 10] ++ (utf8 "Content-Type" ++ [58, 32]) := by
    decide
  have hlength : utf8 "\r\nContent-Length: " = [13, 10] ++ (utf8 "Content-Length" ++ [58, 32]) := by
    decide
  have hclose : utf8 "Connection: close\r\n\r\n"
      = utf8 "Connection" ++ ([58, 32] ++ (utf8 "close" ++ [13, 10, 13, 10])) := by
    decide
  have hend : utf8 "\r\n" = [13, 10] := by decide
  simp only [response, hstring, utf8_append, htype, hlength, hclose, hend]
  simp [message, Http.Message.encode, Http.Message.encodeField, utf8_append]

omit [F64 F] in
/-- Its fields are clean. -/
theorem message_ok {r : String × String × String} (hstatus : '\n' ∉ r.1.toList)
    (htype : '\n' ∉ r.2.1.toList) : (message r).Ok := by
  have hfree {s : String} (hs : '\n' ∉ s.toList) : 10 ∉ utf8 s := fun hmem =>
    hs (mem_of_mem_utf8 hmem (by decide))
  have hdigits (n : ℕ) : '\n' ∉ (toString n).toList := (NoBreak.nat n).1
  constructor
  · exact hfree (by simp [hstatus])
  · simp only [message, List.forall_mem_cons]
    exact ⟨by decide, by decide, by decide, by simp⟩
  · simp only [message, List.forall_mem_cons]
    exact ⟨hfree htype, hfree (hdigits _), by decide, by simp⟩
  · have hsize : r.2.2.utf8ByteSize = (utf8 r.2.2).length := by simp [utf8]
    have hname (value : Bytes) : Http.isLength (utf8 "Content-Type", value) = false :=
      (by decide : decide (Http.lower (utf8 "Content-Type") = utf8 "content-length") = false)
    have hlast (value : Bytes) : Http.isLength (utf8 "Connection", value) = false :=
      (by decide : decide (Http.lower (utf8 "Connection") = utf8 "content-length") = false)
    have hlength (value : Bytes) : Http.isLength (utf8 "Content-Length", value) = true :=
      (by decide : decide (Http.lower (utf8 "Content-Length") = utf8 "content-length") = true)
    have hfilter : (message r).fields.filter Http.isLength
        = [(utf8 "Content-Length", utf8 (toString r.2.2.utf8ByteSize))] := by
      simp [message, hname, hlast, hlength]
    have hlen : readDecimal (latin (utf8 (toString (utf8 r.2.2).length)))
        = some (utf8 r.2.2).length := by
      rw [latin_toString, readDecimal_toString]
    rw [Http.bodyLength, hfilter, hsize]
    exact hlen

/-- The answer is read back. -/
theorem read_response (m : Metrics F) (path : String) :
    Http.read (response (respond m path)) = some (message (respond m path), []) := by
  have hok : (message (respond m path)).Ok := by
    rw [respond]
    split_ifs <;> exact message_ok (by simp) (by simp)
  have hread := Http.read_encode hok []
  rwa [List.append_nil, ← response_eq] at hread

end Server

/-! ## The server beside the agent -/

/-- The samples in an answer that is one response 200. -/
def scrape (answer : Bytes) : Option (List Exposition.Sample) := do
  let (m, rest) ← Http.read answer
  if m.start = utf8 "HTTP/1.1 200 OK" ∧ rest = [] then Exposition.parse (latin m.body) else none

/-- An operation on the registry, or a connection to the server. -/
inductive ServerStep (F ε : Type) where
  | op (op : RegistryOp F)
  | conn (c : Conn ε)

/-- The operation of a step. -/
def ServerStep.op? : ServerStep F ε → Option (RegistryOp F)
  | op o => some o
  | conn _ => none

namespace Server

variable [F64 F]

/-- `serve`: the failure of a connection is ignored. -/
def machine : Machine (Metrics F) (ServerStep F ε) (Option Bytes) where
  step m
    | .op o => ((Registry.machine.step m o).1, none)
    | .conn c => (m, (handleConn m c).toOption)

/-- The samples that clients read during a run, in order. -/
def scraped (steps : List (ServerStep F ε)) : List (List Exposition.Sample) :=
  (machine.log (Metrics.new F) steps).filterMap fun e => e.output.bind scrape

/-- Connections leave the registry as it is. -/
theorem after_eq (m : Metrics F) (steps : List (ServerStep F ε)) :
    machine.after m steps = Registry.machine.after m (steps.filterMap ServerStep.op?) := by
  induction steps generalizing m with
  | nil => rfl
  | cons step steps ih =>
      cases step with
      | op o => exact ih _
      | conn c => exact ih m

/-- The text has one byte for each character. -/
theorem latin_renderPrometheus {m : Metrics F} (h : ∀ l ∈ m.promLines, l.Ok) :
    latin (utf8 m.renderPrometheus) = m.renderPrometheus.toList := by
  apply latin_utf8
  rw [Metrics.renderPrometheus, String.toList_join, List.forall_mem_flatMap]
  refine List.forall_mem_map.2 fun l hl => ?_
  rw [PromLine.toList_text, List.forall_mem_append, List.forall_mem_singleton]
  exact ⟨fun c hc => ((h l hl).2 c hc).1, by decide⟩

/-- An answer with the metrics is read as their samples; the others are none. -/
theorem scrape_response {m : Metrics F} (h : ∀ l ∈ m.promLines, l.Ok) (path : String) :
    scrape (response (respond m path)) = if "/metrics".toList <+: path.toList then
      some m.snapshot.samples else none := by
  have hok (r : String × String × String) (hr : r.1 = "200 OK") :
      (message r).start = utf8 "HTTP/1.1 200 OK" := congrArg (fun s => utf8 ("HTTP/1.1 " ++ s)) hr
  rw [scrape, read_response]
  simp only [Option.bind_eq_bind, Option.bind_some]
  by_cases hmetrics : "/metrics".toList <+: path.toList
  · rw [respond, if_pos hmetrics, if_pos hmetrics, if_pos ⟨hok _ rfl, trivial⟩]
    rw [← m.filterMap_sample]
    exact (congrArg Exposition.parse (latin_renderPrometheus h)).trans
      (Metrics.parse_renderPrometheus h)
  · rw [respond, if_neg hmetrics, if_neg hmetrics]
    by_cases hhealth : "/healthz".toList <+: path.toList
    · -- the word is no sample
      rw [if_pos hhealth, if_pos ⟨hok _ rfl, trivial⟩]
      decide
    · rw [if_neg hhealth, if_neg]
      exact fun hstatus => absurd hstatus.1 (by decide)

/-- What an answer is read as are the samples of the registry. -/
theorem samples_of_scrape {m : Metrics F} (h : ∀ l ∈ m.promLines, l.Ok) {c : Conn ε}
    {samples : List Exposition.Sample}
    (hread : (handleConn m c).toOption.bind scrape = some samples) :
    samples = m.snapshot.samples := by
  cases hconn : handleConn m c with
  | error e =>
      rw [hconn] at hread
      cases hread
  | ok answer =>
      obtain ⟨path, rfl⟩ := handleConn_ok hconn
      rw [hconn, Except.toOption, Option.bind_some, scrape_response h] at hread
      split_ifs at hread
      exact (Option.some.inj hread).symm

/-- The registry that a run leads to can be written as text. -/
def Printed (steps : List (ServerStep F ε)) : Prop :=
  ∀ pre, pre <+: steps → ∀ l ∈ (Registry.machine.after (Metrics.new F)
    (pre.filterMap ServerStep.op?)).promLines, l.Ok

/-- A connection reads the samples of the registry that it meets. -/
theorem mem_scraped {steps : List (ServerStep F ε)} (h : Printed steps)
    {samples : List Exposition.Sample} (hmem : samples ∈ scraped steps) :
    ∃ pre, pre <+: steps ∧ samples
      = (Registry.machine.after (Metrics.new F)
          (pre.filterMap ServerStep.op?)).snapshot.samples := by
  obtain ⟨e, he, hread⟩ := List.mem_filterMap.1 hmem
  obtain ⟨pre, post, hsteps, hstate, houtput⟩ := machine.mem_log.1 he
  have hpre : pre <+: steps := ⟨e.input :: post, hsteps.symm⟩
  refine ⟨pre, hpre, ?_⟩
  rw [after_eq] at hstate
  cases hin : e.input with
  | op o =>
      rw [houtput, hin] at hread
      cases hread
  | conn c =>
      rw [houtput, hin, hstate] at hread
      exact samples_of_scrape (h pre hpre) hread

/-- The counters never fall from one answer to a later one. -/
theorem scraped_grow {steps : List (ServerStep F ε)} (h : Printed steps) :
    (scraped steps).Pairwise fun a b => ∀ s ∈ a, s.IsCounter → ∃ s' ∈ b, s.GrowsTo s' := by
  induction steps using List.reverseRecOn with
  | nil => exact List.Pairwise.nil
  | append_singleton steps step ih =>
      have hsteps : Printed steps := fun pre hpre => h pre (hpre.trans (List.prefix_append _ _))
      rw [scraped, Machine.log_concat, List.filterMap_append, ← scraped, List.pairwise_append]
      refine ⟨ih hsteps, ?_, ?_⟩
      · rw [List.filterMap_cons, List.filterMap_nil]
        split
        · exact List.Pairwise.nil
        · exact List.pairwise_singleton _ _
      · intro a ha b hb s hs hcounter
        obtain ⟨e, he, hread⟩ := List.mem_filterMap.1 hb
        obtain rfl := List.mem_singleton.1 he
        obtain ⟨pre, ⟨post, rfl⟩, rfl⟩ := mem_scraped hsteps ha
        cases step with
        | op o => cases hread
        | conn c =>
            have hlast := h (pre ++ post) (List.prefix_append _ _)
            rw [after_eq] at hread
            rw [samples_of_scrape hlast hread, List.filterMap_append]
            exact (Registry.growsTo_append _ _).samples hs hcounter

end Server

/-- Between the operations of an agent the registry can be written as text. -/
theorem Setup.printed [F64 F] {α : Type} [ToString α] (s : Setup F α)
    (hfixed : ∀ x : F, IsValue (F64.fixed 3 x)) {steps : List (ServerStep F ε)}
    (hops : s.agent.Interleaved (steps.filterMap ServerStep.op?)) : Server.Printed steps := by
  have hkind : ∀ k : EventKind, IsLabel k.asStr := by
    intro k
    cases k <;> decide
  have hseverity : ∀ s : Severity, IsLabel s.asStr := by
    intro s
    cases s <;> decide
  intro pre hpre
  exact (s.labels hkind hseverity isLabel_ip hops (hpre.filterMap _)).ok hfixed

/-- A rational is written as a word. -/
theorem isValue_fixedRat (n : ℕ) (q : ℚ) : IsValue (fixedRat n q) := by
  obtain ⟨negative, whole, fraction, hfraction, htext⟩ := toList_fixedRat n q
  have hdigit {c : Char} (hc : c.isDigit = true) : c.toNat < 128 ∧ c ≠ ' ' ∧ c ≠ '\n' := by
    refine ⟨?_, ?_, ?_⟩
    · rw [Char.isDigit_iff_toNat] at hc
      exact Nat.lt_of_le_of_lt hc.2 (by decide)
    · rintro rfl
      exact absurd hc (by decide)
    · rintro rfl
      exact absurd hc (by decide)
  rw [IsValue, Ne, ← String.toList_eq_nil_iff, htext, Json.decimal]
  constructor
  · exact List.append_ne_nil_of_left_ne_nil
      (List.append_ne_nil_of_right_ne_nil _ Nat.toDigits_ne_nil) _
  · rw [List.forall_mem_append, List.forall_mem_append]
    refine ⟨⟨?_, fun c hc => hdigit (Json.isDigit_of_toDigits c hc)⟩, ?_⟩
    · split_ifs <;> simp
    · split_ifs
      · simp
      · exact List.forall_mem_cons.2 ⟨by decide, fun c hc => hdigit (hfraction c hc)⟩

namespace Sample

/-- A request for the metrics. -/
def scrapeRequest : Request where
  method := "GET"
  path := "/metrics"
  version := "HTTP/1.1"
  headers := [("Host", "localhost")]

end Sample
