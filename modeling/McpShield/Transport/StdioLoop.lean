import McpShield.Transport.Agreement

/-!
# The stdio loop

The loop reads stdin line by line and handles each line before it reads the next.  A line that is no
message is answered and passed over; a line that is not UTF-8 is an error of the reader, which ends
the loop, and so does a panic in one of the components.  `handlesAll_iff` says that nothing else
does.
-/

open Effect Effect.Prog

namespace McpShield

/-- A line of stdin with its line feed, if it has one: at least one byte.  Without bytes stdin is at
its end. -/
abbrev StdinLine : Type := { bytes : ByteArray // bytes.size ≠ 0 }

/-- The calls of the loop: those of the router, and those on stdout. -/
inductive StdioOp where
  | gateway (op : GatewayOp)
  | writeAll (text : String)
  | flush

/-- The answers to the calls.  An error of stdout is its text. -/
def StdioOp.Reply : StdioOp → Type
  | gateway op => op.Reply
  | writeAll _ => Except String Unit
  | flush => Except String Unit

/-- The calls made so far with their answers. -/
abbrev StdioTrace : Type := List (Event StdioOp.Reply)

/-- A computation of the loop. -/
abbrev StdioM : Type → Type := ExceptT McpError (Prog StdioOp StdioOp.Reply)

namespace StdioTransport

/-- `read_line`: a line that is not UTF-8 is an error. -/
def readLine (line : StdinLine) : Except McpError String :=
  match String.fromUTF8? line.1 with
  | some text => .ok text
  | none => .error (.transportError "Failed to read stdin: stream did not contain valid UTF-8")

/-- Perform an operation on stdout. -/
def perform (op : StdioOp) (failed : op.Reply → Option McpError) : StdioM Unit := do
  let outcome ← Prog.request op
  match failed outcome with
  | some e => throw e
  | none => pure ()

/-- The error of an operation, after a text that says which. -/
def failedTo (what : String) : Except String Unit → Option McpError
  | .ok _ => none
  | .error e => some (.transportError s!"Failed to {what}: {e}")

/-- Write a message as a line. -/
def writeMessage (message : JsonRpcMessage) : StdioM Unit := do
  perform (.writeAll message.toJsonString) (failedTo "write stdout")
  perform (.writeAll "\n") (failedTo "write newline")
  perform .flush (failedTo "flush stdout")

/-- What the loop does with one line, and writes. -/
def round (serde : SerdeJson) (router : McpRouter) (enforcer : ScopeEnforcer) (line : String) :
    StdioM Unit := do
  let replies ← ExceptT.lift
    (embed StdioOp.gateway (fun _ reply => reply) (handleLine serde router enforcer line))
  replies.forM writeMessage

/-- The loop, over the lines that stdin has. -/
def run (serde : SerdeJson) (router : McpRouter) (enforcer : ScopeEnforcer) :
    List StdinLine → StdioM Unit
  | [] => pure ()
  | line :: lines => do
      let text ← Prog.result (readLine line)
      round serde router enforcer text
      run serde router enforcer lines

/-! ## Lines that are handled -/

/-- The operation on stdout has succeeded. -/
def Succeeds : (op : StdioOp) → op.Reply → Prop
  | .gateway _, _ => True
  | .writeAll _, outcome => outcome = .ok ()
  | .flush, outcome => outcome = .ok ()

/-- Stdout is writable throughout. -/
def Writable (tr : StdioTrace) : Prop := ∀ ev ∈ tr, Succeeds ev.1 ev.2

section Loop

variable (serde : SerdeJson) (router : McpRouter) (enforcer : ScopeEnforcer)

/-- The calls are those for the lines, one line after the other: for a line of text, those of a round
to its end; for other lines, any. -/
inductive Handled : List StdinLine → StdioTrace → Prop where
  | nil : Handled [] []
  | cons {line lines tr tr'} (hline : ∀ text, readLine line = .ok text →
      Steps (round serde router enforcer text).run tr (.done (.ok ())))
      (hrest : Handled lines tr') : Handled (line :: lines) (tr ++ tr')

/-- The loop is at an end: it has returned, or a call that panics unwinds it. -/
inductive Ended (panics : GatewayOp → Prop) :
    Prog StdioOp StdioOp.Reply (Except McpError Unit) → Prop where
  | returned (r : Except McpError Unit) : Ended panics (.done r)
  | unwound {op : GatewayOp}
      {k : op.Reply → Prog StdioOp StdioOp.Reply (Except McpError Unit)} (h : panics op) :
      Ended panics (.call (.gateway op) k)

/-- Whatever the components answer, if stdout is writable then the loop ends with success, and has
handled all lines in order.  `panics` are the calls that may panic. -/
def HandlesAll (panics : GatewayOp → Prop) (lines : List StdinLine) : Prop :=
  ∀ tr p, Steps (run serde router enforcer lines).run tr p → Ended panics p → Writable tr →
    p = .done (.ok ()) ∧ Handled serde router enforcer lines tr

/-- Some run of the pipeline makes the call for the text. -/
def Reaches (text : String) (op : GatewayOp) : Prop :=
  ∃ tr k, Steps (handleLine serde router enforcer text) tr (.call op k)

/-- The line is UTF-8, and no call that is made for it may panic. -/
def Harmless (panics : GatewayOp → Prop) (line : StdinLine) : Prop :=
  ∃ text, String.fromUTF8? line.1 = some text ∧
    ∀ op, Reaches serde router enforcer text op → ¬ panics op

end Loop

/-! ## The end of a run -/

/-- With stdout writable, the computation succeeds. -/
def EndsOk (x : StdioM Unit) : Prop := ∀ tr r, Steps x.run tr (.done r) → Writable tr → r = .ok ()

theorem Writable.of_append {tr tr' : StdioTrace} (h : Writable (tr ++ tr')) :
    Writable tr ∧ Writable tr' :=
  ⟨fun ev hev => h ev (List.mem_append_left _ hev),
    fun ev hev => h ev (List.mem_append_right _ hev)⟩

theorem Writable.append {tr tr' : StdioTrace} (h : Writable tr) (h' : Writable tr') :
    Writable (tr ++ tr') :=
  fun ev hev => (List.mem_append.mp hev).elim (h ev) (h' ev)

theorem endsOk_pure : EndsOk (pure ()) := by
  intro tr r hrun _
  cases hrun
  rfl

theorem EndsOk.bind {x : StdioM Unit} {f : Unit → StdioM Unit} (hx : EndsOk x)
    (hf : EndsOk (f ())) : EndsOk (x >>= f) := by
  intro tr r hrun hw
  obtain ⟨e, hfail, -⟩ | ⟨tr₁, tr₂, u, rfl, -, hrest⟩ := hrun.bindExcept_inv
  · cases hx tr _ hfail hw
  · exact hf tr₂ r hrest hw.of_append.2

theorem endsOk_perform {op : StdioOp} {failed : op.Reply → Option McpError}
    (h : ∀ r, Succeeds op r → failed r = none) : EndsOk (perform op failed) := by
  intro tr r hrun hw
  simp only [perform, run_request_bind] at hrun
  cases hrun with
  | @call _ _ outcome _ _ hrest =>
    have hsucceeds : Succeeds op outcome := hw ⟨op, outcome⟩ List.mem_cons_self
    beta_reduce at hrest
    rw [h outcome hsucceeds] at hrest
    cases hrest
    rfl

theorem endsOk_writeMessage (message : JsonRpcMessage) : EndsOk (writeMessage message) := by
  unfold writeMessage
  refine (endsOk_perform ?_).bind ((endsOk_perform ?_).bind (endsOk_perform ?_))
  all_goals
    rintro r rfl
    rfl

theorem endsOk_forM (replies : List JsonRpcMessage) : EndsOk (replies.forM writeMessage) := by
  induction replies with
  | nil => exact endsOk_pure
  | cons reply replies ih => exact (endsOk_writeMessage reply).bind ih

section Loop

variable {serde : SerdeJson} {router : McpRouter} {enforcer : ScopeEnforcer}

/-- A round is not ended by its line. -/
theorem endsOk_round (line : String) : EndsOk (round serde router enforcer line) := by
  intro tr r hrun hw
  obtain ⟨tr₁, tr₂, replies, rfl, -, hrest⟩ := Steps.lift_bind_inv hrun
  exact endsOk_forM replies tr₂ r hrest hw.of_append.2

theorem readLine_ok_iff {line : StdinLine} :
    (∃ text, readLine line = .ok text) ↔ (String.fromUTF8? line.1).isSome := by
  unfold readLine
  cases String.fromUTF8? line.1 <;> simp

theorem run_cons {line : StdinLine} {text : String} (hread : readLine line = .ok text)
    (lines : List StdinLine) :
    run serde router enforcer (line :: lines) =
      round serde router enforcer text >>= fun _ => run serde router enforcer lines := by
  refine ExceptT.ext ?_
  simp only [run, hread, run_result_ok_bind]

/-- If every line is text, a run that returns has handled them all. -/
theorem handled_of_returns {lines : List StdinLine} {tr : StdioTrace} {r : Except McpError Unit}
    (h : ∀ line ∈ lines, (String.fromUTF8? line.1).isSome)
    (hrun : Steps (run serde router enforcer lines).run tr (.done r)) (hw : Writable tr) :
    r = .ok () ∧ Handled serde router enforcer lines tr := by
  induction lines generalizing tr r with
  | nil =>
    cases hrun
    exact ⟨rfl, .nil⟩
  | cons line lines ih =>
    obtain ⟨text, hread⟩ := readLine_ok_iff.mpr (h line List.mem_cons_self)
    rw [run_cons hread] at hrun
    obtain ⟨e, hfail, -⟩ | ⟨tr₁, tr₂, u, rfl, hround, hrest⟩ := hrun.bindExcept_inv
    · cases endsOk_round text tr _ hfail hw
    · obtain ⟨hok, hhandled⟩ :=
        ih (fun l hl => h l (List.mem_cons_of_mem line hl)) hrest hw.of_append.2
      refine ⟨hok, .cons (fun text' hread' => ?_) hhandled⟩
      obtain rfl : text = text' := Except.ok.inj (hread.symm.trans hread')
      exact hround

/-! ## Panics -/

/-- A call is not one of the router that may panic. -/
def Calm (panics : GatewayOp → Prop) (op : StdioOp) : Prop :=
  ∀ call, op = .gateway call → ¬ panics call

/-- All calls of the computation are calm. -/
structure StaysCalm {α : Type} (panics : GatewayOp → Prop) (x : StdioM α) : Prop where
  calls : ∀ h, Ensures (fun _ => Calm panics) (fun _ _ => True) x.run h

theorem StaysCalm.bind {α β : Type} {panics : GatewayOp → Prop} {x : StdioM α} {f : α → StdioM β}
    (hx : StaysCalm panics x) (hf : ∀ a, StaysCalm panics (f a)) : StaysCalm panics (x >>= f) :=
  ⟨fun h => (hx.calls h).bindExcept (fun _ _ _ _ => trivial) fun h' a _ _ => (hf a).calls h'⟩

theorem staysCalm_perform {panics : GatewayOp → Prop} {op : StdioOp}
    {failed : op.Reply → Option McpError} (hop : Calm panics op) :
    StaysCalm panics (perform op failed) := by
  constructor
  intro h
  unfold perform
  rw [run_request_bind]
  refine ⟨hop, fun outcome => ?_⟩
  beta_reduce
  cases failed outcome with
  | none => trivial
  | some e => trivial

/-- Nothing that is written panics. -/
theorem staysCalm_forM {panics : GatewayOp → Prop} (replies : List JsonRpcMessage) :
    StaysCalm panics (replies.forM writeMessage) := by
  have hwrite : ∀ text, Calm panics (.writeAll text) := fun _ _ h => nomatch h
  have hflush : Calm panics .flush := fun _ h => nomatch h
  induction replies with
  | nil => exact ⟨fun h => trivial⟩
  | cons reply replies ih =>
    refine StaysCalm.bind ?_ fun _ => ih
    exact (staysCalm_perform (hwrite _)).bind fun _ =>
      (staysCalm_perform (hwrite _)).bind fun _ => staysCalm_perform hflush

/-- Calls of the router that do not panic, with the writing of what comes of them. -/
theorem staysCalm_lift {panics : GatewayOp → Prop}
    {p : Prog GatewayOp GatewayOp.Reply (List JsonRpcMessage)}
    (hsafe : ∀ tr op k, Steps p tr (.call op k) → ¬ panics op) :
    StaysCalm panics (ExceptT.lift (embed StdioOp.gateway (fun _ reply => reply) p) >>=
      fun replies => replies.forM writeMessage) := by
  have hcalls : Ensures (fun _ op => ¬ panics op) (fun _ _ => True) p [] := by
    refine ((ensures_steps p).mono_may ?_).mono fun _ _ _ _ => trivial
    exact fun tr op ⟨k, hcall⟩ => hsafe tr op k hcall
  constructor
  intro h
  rw [run_lift_bind]
  refine (hcalls.embed fun op hop call heq => ?_).bind fun h' replies _ _ =>
    (staysCalm_forM replies).calls h'
  cases heq
  exact hop

theorem staysCalm_round {panics : GatewayOp → Prop} {text : String}
    (hsafe : ∀ op, Reaches serde router enforcer text op → ¬ panics op) :
    StaysCalm panics (round serde router enforcer text) :=
  staysCalm_lift fun tr op k hcall => hsafe op ⟨tr, k, hcall⟩

/-- If every line is harmless, nothing panics. -/
theorem staysCalm_run {panics : GatewayOp → Prop} {lines : List StdinLine}
    (hlines : ∀ line ∈ lines, Harmless serde router enforcer panics line) :
    StaysCalm panics (run serde router enforcer lines) := by
  induction lines with
  | nil => exact ⟨fun h => trivial⟩
  | cons line lines ih =>
    obtain ⟨text, htext, hsafe⟩ := hlines line List.mem_cons_self
    have hread : readLine line = .ok text := by rw [readLine, htext]
    rw [run_cons hread]
    refine (staysCalm_round hsafe).bind fun _ => ?_
    exact ih fun l hl => hlines l (List.mem_cons_of_mem line hl)

/-- A run of the router is one within the loop. -/
theorem steps_gateway {α : Type} {p q : Prog GatewayOp GatewayOp.Reply α} {tr : GatewayTrace}
    (h : Steps p tr q) :
    Steps (embed StdioOp.gateway (fun _ reply => reply) p)
      (tr.map fun ev => (⟨.gateway ev.1, ev.2⟩ : Event StdioOp.Reply))
      (embed StdioOp.gateway (fun _ reply => reply) q) := by
  induction h with
  | refl => exact .refl _
  | call _ ih => exact .call ih

/-- A call that is reached for the text is reached in the round. -/
theorem Reaches.exists_round {text : String} {op : GatewayOp}
    (h : Reaches serde router enforcer text op) :
    ∃ tr k, Steps (round serde router enforcer text).run tr (.call (.gateway op) k) ∧
      Writable tr := by
  obtain ⟨tr, k, hsteps⟩ := h
  unfold round
  rw [run_lift_bind]
  refine ⟨_, _, (steps_gateway hsteps).bind_right _, fun ev hev => ?_⟩
  obtain ⟨call, -, rfl⟩ := List.mem_map.mp hev
  trivial

/-- Some run: the components answer and stdout is writable. -/
def answer : (op : StdioOp) → op.Reply
  | .gateway op => openComponents.answer op
  | .writeAll _ => .ok ()
  | .flush => .ok ()

theorem succeeds_answer (op : StdioOp) : Succeeds op (answer op) := by
  cases op with
  | gateway op => trivial
  | writeAll text => rfl
  | flush => rfl

/-- A harmless line that does not end the loop leaves it with the lines after it. -/
theorem forall_harmless {panics : GatewayOp → Prop} {lines : List StdinLine}
    (h : ∀ tr p, Steps (run serde router enforcer lines).run tr p → Ended panics p → Writable tr →
      p = .done (.ok ())) : ∀ line ∈ lines, Harmless serde router enforcer panics line := by
  induction lines with
  | nil => exact fun line hline => absurd hline List.not_mem_nil
  | cons line lines ih =>
    cases hread : readLine line with
    | error e =>
      simp only [run, hread, run_result_error_bind] at h
      cases h [] _ (.refl _) (.returned _) fun ev hev => absurd hev List.not_mem_nil
    | ok text =>
      have htext : String.fromUTF8? line.1 = some text := by
        unfold readLine at hread
        split at hread
        · cases hread
          assumption
        · cases hread
      rw [run_cons hread] at h
      refine List.forall_mem_cons.mpr ⟨⟨text, htext, fun op hreach hpanic => ?_⟩, ih ?_⟩
      · obtain ⟨tr, k, hround, hw⟩ := hreach.exists_round
        obtain ⟨k', hrun⟩ := hround.bindExcept_call
        cases h tr _ hrun (.unwound hpanic) hw
      · intro tr p hrun hended hw
        obtain ⟨tr₁, r, hround, hanswer⟩ :=
          exists_steps_done answer (round serde router enforcer text).run
        have hw₁ : Writable tr₁ := fun ev hev => hanswer ev.1 ev.2 hev ▸ succeeds_answer ev.1
        obtain rfl := endsOk_round text tr₁ r hround hw₁
        exact h (tr₁ ++ tr) p (Steps.bind_ok hround hrun) hended (hw₁.append hw)

/-- The loop handles all lines and succeeds exactly when every line is UTF-8 and no call that is made
for one panics. -/
theorem handlesAll_iff (panics : GatewayOp → Prop) (lines : List StdinLine) :
    HandlesAll serde router enforcer panics lines ↔
      ∀ line ∈ lines, Harmless serde router enforcer panics line := by
  refine ⟨fun h => forall_harmless fun tr p hrun hended hw => (h tr p hrun hended hw).1, ?_⟩
  intro hlines tr p hrun hended hw
  cases hended with
  | unwound hpanic =>
    exact absurd hpanic ((((staysCalm_run hlines).calls []).may_of_steps hrun) _ rfl)
  | returned r =>
    have htext : ∀ line ∈ lines, (String.fromUTF8? line.1).isSome := by
      intro line hline
      obtain ⟨text, htext, -⟩ := hlines line hline
      rw [htext]
      rfl
    obtain ⟨rfl, hhandled⟩ := handled_of_returns htext hrun hw
    exact ⟨rfl, hhandled⟩

end Loop

/-! ## A line that ends the loop -/

/-- A line with a byte that no UTF-8 text has. -/
def strayLine : StdinLine := ⟨⟨#[0xff, 0x0a]⟩, by decide⟩

/-- The line of a `ping`. -/
def pingLine : StdinLine := ⟨(pingText ++ "\n").toUTF8, by decide +kernel⟩

theorem lineCarries_pingLine :
    LineCarries pingSerde (pingText ++ "\n") (.request (.integer 1) "ping" none) := by
  have htrim : Str.trim (pingText ++ "\n") = pingText := by decide +kernel
  exact ⟨htrim ▸ pingText_ne_empty, htrim ▸ fromStr_pingText⟩

/-- The request after the stray byte is not routed: the loop ends with an error and no call, also
where no call panics. -/
theorem stray_ends_loop :
    readLine pingLine = .ok (pingText ++ "\n") ∧
      LineCarries pingSerde (pingText ++ "\n") (.request (.integer 1) "ping" none) ∧
      (run pingSerde plainRouter (.new []) [strayLine, pingLine]).run = .done (.error
        (.transportError "Failed to read stdin: stream did not contain valid UTF-8")) ∧
      ¬ HandlesAll pingSerde plainRouter (.new []) (fun _ => False) [strayLine, pingLine] := by
  have hread : readLine pingLine = .ok (pingText ++ "\n") := by
    simp only [readLine, pingLine, fromUTF8?_toUTF8]
  have hrun : (run pingSerde plainRouter (.new []) [strayLine, pingLine]).run = .done (.error
      (.transportError "Failed to read stdin: stream did not contain valid UTF-8")) := rfl
  refine ⟨hread, lineCarries_pingLine, hrun, fun h => ?_⟩
  have hsteps := Steps.refl (run pingSerde plainRouter (.new []) [strayLine, pingLine]).run
  rw [hrun] at hsteps
  obtain ⟨hok, -⟩ := h [] _ hsteps (.returned _) fun ev hev => absurd hev List.not_mem_nil
  cases hok

end StdioTransport

end McpShield
