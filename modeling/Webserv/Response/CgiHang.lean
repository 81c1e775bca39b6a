import Webserv.Response.CgiExchange

/-!
# When a script and the server wait for each other

The server does not read before the whole body is written.  A body that fits into the pipe is
handed over whatever the script does; a longer one waits for the script to read.
-/

namespace Webserv

open Text Pipes

namespace CgiExchange

variable {x : Exchange} {capacity : Pipe → Nat} {atomic : Nat} {s s' : State x}

/-! ## When both wait -/

theorem serverAct_read {body : Str} {stage : ServerStage} {i : Pipe} {count : Nat}
    {next : Str → ServerStage} (h : serverAct body stage = .read i count next) :
    stage = .read ∧ i = .c2p := by
  cases stage <;> cases h
  exact ⟨rfl, rfl⟩

theorem scriptAct_read {γ : Type} {program : γ → Action Pipe Byte γ} {main : γ}
    {stage : ScriptStage γ} {i : Pipe} {count : Nat} {next : Str → ScriptStage γ}
    (h : scriptAct program main stage = .read i count next) : ∃ g, stage = .running g := by
  cases stage <;> first | cases h | exact ⟨_, rfl⟩

theorem scriptAct_write {γ : Type} {program : γ → Action Pipe Byte γ} {main : γ}
    {stage : ScriptStage γ} {i : Pipe} {data : Str} {next : ScriptStage γ}
    (h : scriptAct program main stage = .write i data next) : ∃ g, stage = .running g := by
  cases stage <;> first | cases h | exact ⟨_, rfl⟩

/-- Neither process can go on, and the server is not through. -/
def Hung (capacity : Pipe → Nat) (atomic : Nat) (s : State x) : Prop :=
  (∀ s', ¬ AnyStep x.act capacity atomic s s') ∧ ¬ Ended s .server

theorem Invariant.server_ends (h : Invariant atomic s) (hrun : (s.procs .server).status = .running)
    {stage : ServerStage} (hstage : s.server.state = stage) :
    (s.procs .server).ends = serverEnds stage :=
  (h.server.ends.ends hrun).trans (congrArg serverEnds hstage)

/-- An end that is open and not the server's is one of a script that runs. -/
theorem Invariant.script_not_ended (h : Invariant atomic s)
    (hrun : (s.procs .server).status = .running) {stage : ServerStage}
    (hstage : s.server.state = stage) {e : End Pipe} (he : e ∉ serverEnds stage)
    (hopen : ∃ q, e ∈ (s.procs q).ends) : ¬ Ended s .script := by
  obtain ⟨q, hq⟩ := hopen
  cases q with
  | server =>
    rw [h.server_ends hrun hstage] at hq
    exact absurd hq he
  | script => exact fun hended => hended (h.script.running hq).1

/-- A running program has its standard input and output and nothing else. -/
theorem Invariant.script_end (h : Invariant atomic s) {g : x.γ}
    (hstage : s.script.state = .running g) {e : End Pipe} (he : e ∈ (s.procs .script).ends) :
    e = .reading .p2c ∨ e = .writing .c2p := by
  have hends := (h.script.running he).2
  rw [hstage] at hends
  exact hends e he

theorem Invariant.script_waits_to_read (h : Invariant atomic s) {i : Pipe}
    (hwaits : WaitsToRead x.act s .script i) : i = .p2c := by
  obtain ⟨-, ⟨count, next, hact⟩, hend, -⟩ := hwaits
  obtain ⟨g, hstage⟩ := scriptAct_read hact
  rcases h.script_end hstage hend with heq | heq <;> cases heq
  rfl

theorem Invariant.script_waits_to_write (h : Invariant atomic s) {i : Pipe}
    (hwaits : WaitsToWrite x.act capacity atomic s .script i) :
    i = .c2p ∧ ∃ g, s.script.state = .running g := by
  obtain ⟨-, hend, -, data, next, hact, -⟩ := hwaits
  obtain ⟨g, hstage⟩ := scriptAct_write hact
  rcases h.script_end hstage hend with heq | heq <;> cases heq
  exact ⟨rfl, g, hstage⟩

/-- A script that waits for its input waits for a server that has not closed it. -/
theorem Invariant.script_reads_of_read (h : Invariant atomic s) (hstage : s.server.state = .read)
    (hrun : (s.procs .server).status = .running) : ¬ WaitsToRead x.act s .script .p2c := by
  rintro ⟨-, ⟨count, next, hact⟩, -, -, p, hp⟩
  obtain ⟨g, hscript⟩ := scriptAct_read hact
  cases p with
  | server =>
    rw [h.server_ends hrun hstage] at hp
    exact absurd hp (by decide)
  | script => rcases h.script_end hscript hp with heq | heq <;> cases heq

theorem Invariant.hung_iff_waits (h : Invariant atomic s) (hatomic : 0 < atomic)
    (hcap : ∀ i, atomic ≤ capacity i) :
    Hung capacity atomic s ↔ WaitsToWrite x.act capacity atomic s .server .p2c ∧
      WaitsToWrite x.act capacity atomic s .script .c2p := by
  have hstep : ∀ p, (∀ s', ¬ AnyStep x.act capacity atomic s s') → Ended s p ∨
      (∃ i, WaitsToRead x.act s p i) ∨ ∃ i, WaitsToWrite x.act capacity atomic s p i :=
    fun p hnone => (cannot_step_iff (h.bounded p)).mp fun s' hp => hnone s' ⟨p, hp⟩
  constructor
  · rintro ⟨hnone, hserver⟩
    rcases hstep .server hnone with hended | ⟨i, hreads⟩ | ⟨i, hwrites⟩
    · exact absurd hended hserver
    · -- the server waits for a script that has its output open
      obtain ⟨hrun, ⟨count, next, hact⟩, -, hcontent, hopen⟩ := hreads
      obtain ⟨hstage, rfl⟩ := serverAct_read hact
      have hscript := h.script_not_ended hrun hstage (by decide) hopen
      rcases hstep .script hnone with hended | ⟨j, hwaits⟩ | ⟨j, hwaits⟩
      · exact absurd hended hscript
      · cases h.script_waits_to_read hwaits
        exact absurd hwaits (h.script_reads_of_read hstage hrun)
      · obtain ⟨rfl, -⟩ := h.script_waits_to_write hwaits
        exact absurd hcontent (hwaits.content_ne_nil (h.bounded _) hatomic (hcap _))
    · -- the server waits for a script that has its input open
      have hwaits := hwrites
      obtain ⟨hrun, -, hopen, data, next, hact, -⟩ := hwrites
      obtain ⟨hstage, rfl⟩ := serverAct_write hact
      refine ⟨hwaits, ?_⟩
      have hscript := h.script_not_ended hrun hstage (by decide) hopen
      rcases hstep .script hnone with hended | ⟨j, hreads⟩ | ⟨j, hwrites⟩
      · exact absurd hended hscript
      · cases h.script_waits_to_read hreads
        exact absurd hreads.2.2.2.1
          (hwaits.content_ne_nil (h.bounded _) hatomic (hcap _))
      · obtain ⟨rfl, -⟩ := h.script_waits_to_write hwrites
        exact hwrites
  · rintro ⟨hserver, hscript⟩
    refine ⟨fun s' ⟨p, hp⟩ => ?_, fun hended => hended hserver.1⟩
    cases p with
    | server => exact (cannot_step_iff (h.bounded _)).mpr (Or.inr (Or.inr ⟨_, hserver⟩)) s' hp
    | script => exact (cannot_step_iff (h.bounded _)).mpr (Or.inr (Or.inr ⟨_, hscript⟩)) s' hp

/-- An exchange hangs exactly when each party waits for the other to read.  The script is one
process, and waits for nothing but its two pipes. -/
theorem Reachable.hung_iff (h : Reachable capacity atomic s) (hatomic : 0 < atomic)
    (hcap : ∀ i, atomic ≤ capacity i) :
    Hung capacity atomic s ↔ WaitsToWrite x.act capacity atomic s .server .p2c ∧
      WaitsToWrite x.act capacity atomic s .script .c2p :=
  h.invariant.hung_iff_waits hatomic hcap

/-- A script that prints before it reads, and more than its pipe has room for. -/
def printingExchange : Exchange :=
  ⟨Bool, fun printed => if printed then .halt else .write .c2p [1, 2] true, false, [1, 2]⟩

theorem printingExchange_reaches : ∃ s : State printingExchange, Reachable (fun _ => 1) 1 s ∧
    WaitsToWrite printingExchange.act (fun _ => 1) 1 s .server .p2c ∧
    WaitsToWrite printingExchange.act (fun _ => 1) 1 s .script .c2p := by
  have hfirst : ∀ {s : State printingExchange} {p : Party} {i : Pipe},
      (s.procs p).progress = 0 → s.content i = [] → Fits (fun _ => 1) 1 s p i [1, 2] [1] := by
    intro s p i hprogress hcontent
    refine ⟨by decide, ?_, ?_, by decide⟩
    · rw [hprogress]
      decide
    · rw [hcontent]
      decide
  have hfull : ∀ {s : State printingExchange} {p : Party} {i : Pipe} {data piece : Str},
      (s.content i).length = 1 → ¬ Fits (fun _ => 1) 1 s p i data piece := by
    intro s p i data piece hcontent hfits
    have hpos := List.length_pos_of_ne_nil hfits.nonempty
    have hroom := hfits.room
    omega
  have h : Reachable (fun _ => 1) 1 printingExchange.start := .refl
  have h := h.tail ⟨.server, .close rfl rfl⟩
  have h := h.tail ⟨.server, .close rfl rfl⟩
  have h := h.tail ⟨.script, .dup rfl rfl (by decide)⟩
  have h := h.tail ⟨.script, .close rfl rfl⟩
  have h := h.tail ⟨.script, .close rfl rfl⟩
  have h := h.tail ⟨.script, .dup rfl rfl (by decide)⟩
  have h := h.tail ⟨.script, .close rfl rfl⟩
  have h := h.tail ⟨.script, .close rfl rfl⟩
  have h := h.tail ⟨.server, .push rfl rfl (by decide) ⟨.script, by decide⟩ (hfirst rfl rfl)⟩
  have h := h.tail ⟨.script, .push rfl rfl (by decide) ⟨.server, by decide⟩ (hfirst rfl rfl)⟩
  refine ⟨_, h, ⟨rfl, by decide, ⟨.script, by decide⟩, _, _, rfl, by decide, fun _ => hfull rfl⟩,
    ⟨rfl, by decide, ⟨.server, by decide⟩, _, _, rfl, by decide, fun _ => hfull rfl⟩⟩

theorem hung_iff_printing : ∃ s : State printingExchange, Hung (fun _ => 1) 1 s := by
  obtain ⟨s, hs, hwaits⟩ := printingExchange_reaches
  exact ⟨s, (Reachable.hung_iff hs (by decide) fun _ => Nat.le_refl 1).mpr hwaits⟩

/-! ## Bodies that fit into the pipe -/

/-- The server never waits with a body that its pipe has room for. -/
theorem Invariant.not_waits_of_fits (h : Invariant atomic s)
    (hbody : x.body.length ≤ capacity .p2c) :
    ¬ WaitsToWrite x.act capacity atomic s .server .p2c := by
  rintro ⟨-, -, -, data, next, hact, hdone, hfits⟩
  obtain ⟨hstage, -⟩ : s.server.state = .write ∧ Pipe.p2c = .p2c := serverAct_write hact
  have hserver : x.act .server (s.procs .server).state = .write .p2c x.body .closeP2cWrite :=
    congrArg (serverAct x.body) hstage
  obtain ⟨-, rfl, rfl⟩ := Action.write.inj (hact.symm.trans hserver)
  have hcontent : (s.content .p2c).length ≤ (s.procs .server).progress := by
    have hwritten := congrArg List.length ((h.conserved .p2c).symm.trans h.server.written)
    rw [hstage, List.length_append] at hwritten
    have htake : (x.body.take s.server.progress).length ≤ s.server.progress :=
      List.length_take_le _ _
    change _ = (x.body.take s.server.progress).length at hwritten
    change _ ≤ s.server.progress
    omega
  obtain ⟨hle, hshort⟩ := h.bounded .server _ _ _ hact
  have hroom : (s.content .p2c).length +
      (if x.body.length ≤ atomic then x.body.length else 1) ≤ capacity .p2c := by
    split
    · next hatomic =>
      have hzero := (hshort hatomic).resolve_right hdone
      omega
    · omega
  obtain ⟨piece, hpiece⟩ := exists_fits (h.bounded .server) hact hdone hroom
  exact hfits piece hpiece

/-! ## Scripts that end -/

/-- A program gets some more of its standard input, if anything. -/
def Fed {γ : Type} (act : γ → Action Pipe Byte γ) (after before : γ × Str) : Prop :=
  ∃ got, (act before.1).Next got after.1 ∧ got .c2p = [] ∧ before.2 = got .p2c ++ after.2

/-- The script ends with the body as its standard input, in whatever pieces it arrives. -/
def Exchange.ScriptEnds (x : Exchange) : Prop := Acc (Fed x.program) (x.main, x.body)

/-- A call that takes nothing from the input. -/
theorem acc_of_calm {γ : Type} {act : γ → Action Pipe Byte γ} {before after : γ} {input : Str}
    (h : Acc (Fed act) (after, input))
    (hact : (∃ e, act before = .dup e after) ∨ ∃ e, act before = .close e after) :
    Acc (Fed act) (before, input) := by
  refine Acc.intro _ fun ⟨next, rest⟩ hfed => ?_
  obtain ⟨got, hgot, -, hinput⟩ := hfed
  change (act before).Next got next at hgot
  change input = got .p2c ++ rest at hinput
  have hcalm : next = after ∧ got .p2c = [] := by
    rcases hact with ⟨e, hact⟩ | ⟨e, hact⟩ <;>
    · rw [hact] at hgot
      cases hgot
      exact ⟨rfl, rfl⟩
  rw [hcalm.2, List.nil_append] at hinput
  rw [hcalm.1, ← hinput]
  exact h

/-- The calls in front of the program take nothing from the body. -/
theorem Exchange.ScriptEnds.acc (h : x.ScriptEnds) :
    Acc (Fed (scriptAct x.program x.main)) (.dupStdin, x.body) := by
  have hrunning : ∀ before : x.γ × Str, Acc (Fed x.program) before →
      Acc (Fed (scriptAct x.program x.main)) (.running before.1, before.2) := by
    intro before hacc
    induction hacc with
    | intro before _ ih =>
      refine Acc.intro _ fun ⟨stage, rest⟩ hfed => ?_
      obtain ⟨got, hgot, hnil, hinput⟩ := hfed
      obtain ⟨g, hg, rfl⟩ := Action.next_map hgot
      exact ih (g, rest) ⟨got, hg, hnil, hinput⟩
  have hcloseC2pRead : Acc (Fed (scriptAct x.program x.main)) (.closeC2pRead, x.body) :=
    acc_of_calm (hrunning (x.main, x.body) h) (Or.inr ⟨_, rfl⟩)
  have hcloseC2pWrite : Acc (Fed (scriptAct x.program x.main)) (.closeC2pWrite, x.body) :=
    acc_of_calm hcloseC2pRead (Or.inr ⟨_, rfl⟩)
  have hdupStdout : Acc (Fed (scriptAct x.program x.main)) (.dupStdout, x.body) :=
    acc_of_calm hcloseC2pWrite (Or.inl ⟨_, rfl⟩)
  have hcloseP2cWrite : Acc (Fed (scriptAct x.program x.main)) (.closeP2cWrite, x.body) :=
    acc_of_calm hdupStdout (Or.inr ⟨_, rfl⟩)
  have hcloseP2cRead : Acc (Fed (scriptAct x.program x.main)) (.closeP2cRead, x.body) :=
    acc_of_calm hcloseP2cWrite (Or.inr ⟨_, rfl⟩)
  exact acc_of_calm hcloseP2cRead (Or.inl ⟨_, rfl⟩)

/-- How many calls the server has still to make. -/
def ServerStage.left : ServerStage → Nat
  | .closeP2cRead => 6
  | .closeC2pWrite => 5
  | .write => 4
  | .closeP2cWrite => 3
  | .read => 2
  | .closeC2pRead _ => 1
  | .returned _ => 0

theorem serverAct_next {body : Str} {stage stage' : ServerStage} {got : Pipe → Str}
    (h : (serverAct body stage).Next got stage') :
    stage'.left < stage.left ∧ got .p2c = [] := by
  cases stage <;> cases h
  case read hgot => exact ⟨Nat.lt_succ_self 1, hgot _ (by decide)⟩
  all_goals exact ⟨Nat.lt_succ_self _, rfl⟩

open Classical in
/-- How far the script is from its end, with what is left of its input. -/
noncomputable def Exchange.scriptRank (x : Exchange) (before : ScriptStage x.γ × Str) : Ordinal :=
  if h : Acc (Fed (scriptAct x.program x.main)) before then h.rank else 0

theorem Exchange.scriptRank_lt {before after : ScriptStage x.γ × Str}
    (h : Acc (Fed (scriptAct x.program x.main)) before)
    (hfed : Fed (scriptAct x.program x.main) after before) :
    x.scriptRank after < x.scriptRank before := by
  rw [scriptRank, scriptRank, dif_pos h, dif_pos (h.inv hfed)]
  exact h.rank_lt_of_rel hfed

noncomputable def Exchange.rank (x : Exchange) : ∀ p, Stage x.γ p → (Pipe → Str) → Ordinal
  | .server, stage, _ => (ServerStage.left stage : Ordinal)
  | .script, stage, taken => x.scriptRank (stage, x.body.drop (taken .p2c).length)

/-- The script ends with what is left of the body. -/
structure Ending (atomic : Nat) (s : State x) : Prop where
  invariant : Invariant atomic s
  acc : Acc (Fed (scriptAct x.program x.main))
    (s.script.state, x.body.drop (s.taken .p2c).length)

theorem taken_p2c_of_server (hstep : Step x.act capacity atomic .server s s') :
    s'.taken .p2c = s.taken .p2c := by
  have hmoved := hstep.moved
  generalize s'.procs .server = proc at hmoved
  generalize s'.taken = taken at hmoved
  cases hmoved with
  | next ends got hgot =>
    change s.taken .p2c ++ got .p2c = s.taken .p2c
    rw [(serverAct_next hgot).2, List.append_nil]
  | push | stop => rfl

theorem fed_of_script (hinv : Invariant atomic s)
    (hstep : Step x.act capacity atomic .script s s') {got : Pipe → Str}
    (hgot : (x.act .script (s.procs .script).state).Next got (s'.procs .script).state)
    (htaken : s'.taken = fun i => s.taken i ++ got i) :
    Fed (scriptAct x.program x.main)
      ((s'.procs .script).state, x.body.drop (s'.taken .p2c).length)
      (s.script.state, x.body.drop (s.taken .p2c).length) := by
  refine ⟨got, hgot, ?_, ?_⟩
  · have hsame := (ScriptStep.of_step hinv.script hstep).taken
    rw [htaken] at hsame
    exact List.append_right_eq_self.mp hsame
  · have hpre := (hinv.step hstep).taken_isPrefix
    rw [htaken] at hpre ⊢
    obtain ⟨rest, hrest⟩ := hpre
    change x.body.drop (s.taken .p2c).length =
      got .p2c ++ x.body.drop (s.taken .p2c ++ got .p2c).length
    rw [← hrest, List.drop_left, List.append_assoc, List.drop_left]

theorem Ending.step (h : Ending atomic s) {p : Party}
    (hstep : Step x.act capacity atomic p s s') : Ending atomic s' := by
  refine ⟨h.invariant.step hstep, ?_⟩
  cases p with
  | server =>
    have hscript : State.script s' = s.script := hstep.procs_of_ne (by decide)
    rw [hscript, taken_p2c_of_server hstep]
    exact h.acc
  | script =>
    have hfed := fun got => @fed_of_script x capacity atomic s s' h.invariant hstep got
    have hmoved := hstep.moved
    rw [State.script]
    generalize s'.procs .script = proc at hmoved hfed
    generalize s'.taken = taken at hmoved hfed
    cases hmoved with
    | next ends got hgot => exact h.acc.inv (hfed got hgot rfl)
    | push | stop => exact h.acc

theorem Exchange.descends (x : Exchange) :
    Descends x.rank x.act capacity atomic (Ending atomic) where
  step := fun hstep h => h.step hstep
  next := by
    intro p s s' got hstep h hgot htaken
    cases p with
    | server => exact Nat.cast_lt.mpr (serverAct_next hgot).1
    | script => exact x.scriptRank_lt h.acc (fed_of_script h.invariant hstep hgot htaken)
  frame := by
    intro p q s s' hstep h hq
    cases q with
    | server => exact le_refl _
    | script =>
      cases p with
      | server =>
        change x.scriptRank (_, x.body.drop (s'.taken .p2c).length) ≤ _
        rw [taken_p2c_of_server hstep]
        exact le_refl _
      | script => exact absurd rfl hq

/-- With a body that its pipe has room for, a script that ends makes an exchange that ends, and
the server gets to its end. -/
theorem Exchange.completes_of_fits (x : Exchange) (hscript : x.ScriptEnds) (hatomic : 0 < atomic)
    (hcap : ∀ i, atomic ≤ capacity i) (hbody : x.body.length ≤ capacity .p2c) :
    Acc (fun s' s => AnyStep x.act capacity atomic s s') x.start ∧
      ∀ s : State x, Reachable capacity atomic s → ¬ Hung capacity atomic s := by
  refine ⟨x.descends.acc ⟨invariant_start atomic, hscript.acc⟩, fun s h hhung => ?_⟩
  have hwaits := ((h.invariant.hung_iff_waits hatomic hcap).mp hhung).1
  exact h.invariant.not_waits_of_fits hbody hwaits

/-- A script that prints what it reads, up to the end of its input. -/
inductive Cat
  | reading
  | writing (data : Str)
  | finished

def cat : Cat → Action Pipe Byte Cat
  | .reading => .read .p2c 4096 fun data => if data = [] then .finished else .writing data
  | .writing data => .write .c2p data .reading
  | .finished => .halt

/-- It ends on every input, since each time around it has got a byte. -/
theorem cat_ends (input : Str) : Acc (Fed cat) (.reading, input) := by
  induction hlen : input.length using Nat.strong_induction_on generalizing input with
  | _ n ih =>
    refine Acc.intro _ fun ⟨stage, rest⟩ hfed => ?_
    obtain ⟨got, hgot, -, hinput⟩ := hfed
    have hstage : stage = if got .p2c = [] then .finished else .writing (got .p2c) :=
      Action.next_read hgot
    change input = got .p2c ++ rest at hinput
    by_cases hdata : got .p2c = []
    · rw [hstage, if_pos hdata]
      refine Acc.intro _ fun after hfed => ?_
      obtain ⟨got, hgot, -⟩ := hfed
      cases hgot
    · rw [hstage, if_neg hdata]
      refine Acc.intro _ fun ⟨stage', rest'⟩ hfed => ?_
      obtain ⟨got', hgot', -, hrest⟩ := hfed
      change rest = got' .p2c ++ rest' at hrest
      have hpos := List.length_pos_of_ne_nil hdata
      have hsum := congrArg List.length hinput
      have hsum' := congrArg List.length hrest
      rw [List.length_append] at hsum hsum'
      cases hgot' with
      | write => exact ih rest'.length (by omega) rest' rfl

theorem completes_cat :
    Acc (fun s' s => AnyStep (Exchange.mk Cat cat .reading (lit "body")).act (fun _ => 8) 4 s s')
        (Exchange.mk Cat cat .reading (lit "body")).start ∧
      ∀ s : State (Exchange.mk Cat cat .reading (lit "body")),
        Reachable (fun _ => 8) 4 s → ¬ Hung (fun _ => 8) 4 s :=
  (Exchange.mk Cat cat .reading (lit "body")).completes_of_fits (cat_ends (lit "body")) (by decide)
    (fun _ => by decide) (by decide)

/-! ## Scripts that write first -/

/-- The server has not handed over its body, and the script has not printed its data. -/
structure Stalled (capacity : Pipe → Nat) (atomic : Nat) (s : State x) : Prop where
  invariant : Invariant atomic s
  within : ∀ i, (s.content i).length ≤ capacity i
  server : (s.procs .server).status = .running ∧
    (s.server.state = .closeP2cRead ∨ s.server.state = .closeC2pWrite ∨ s.server.state = .write)
  script : (s.procs .script).status = .running
  program : ∀ g, s.script.state = .running g →
    g = x.main ∧ .reading .p2c ∈ (s.procs .script).ends ∧ .writing .c2p ∈ (s.procs .script).ends
  taken : s.taken .p2c = []
  printed : (s.procs .script).progress ≤ (s.content .c2p).length

theorem stalled_start : Stalled capacity atomic x.start where
  invariant := invariant_start atomic
  within := fun _ => Nat.zero_le _
  server := ⟨rfl, Or.inl rfl⟩
  script := rfl
  program := fun _ h => nomatch h
  taken := rfl
  printed := Nat.le_refl _

/-- Somebody can read what the server writes as long as the script runs its first call. -/
theorem Stalled.hasReader (h : Stalled capacity atomic s) : s.HasReader .p2c := by
  refine ⟨.script, ?_⟩
  have hends : ScriptEnds (s.procs .script).ends s.script.state := h.invariant.script.ends h.script
  cases hstage : s.script.state with
  | running g => exact (h.program g hstage).2.1
  | dupStdin | closeP2cRead | closeP2cWrite | dupStdout | closeC2pWrite | closeC2pRead =>
    rw [hstage] at hends
    change (s.procs .script).ends = _ at hends
    rw [hends]
    decide

theorem Stalled.server_step (h : Stalled capacity atomic s) (hbody : capacity .p2c < x.body.length)
    (hstep : Step x.act capacity atomic .server s s') : Stalled capacity atomic s' := by
  have hscript : s'.procs .script = s.procs .script := hstep.procs_of_ne (by decide)
  have hact : ∀ {stage}, s.server.state = stage →
      x.act .server (s.procs .server).state = serverAct x.body stage :=
    congrArg (serverAct x.body)
  have hrest : ((s'.procs .server).status = .running ∧
      ((State.server s').state = .closeP2cRead ∨ (State.server s').state = .closeC2pWrite ∨
        (State.server s').state = .write)) ∧
      (s.content .c2p).length ≤ (s'.content .c2p).length := by
    rcases h.server.2 with hstage | hstage | hstage
    · rw [hstep.of_close (hact hstage)]
      exact ⟨⟨rfl, Or.inr (Or.inl rfl)⟩, Nat.le_refl _⟩
    · rw [hstep.of_close (hact hstage)]
      exact ⟨⟨rfl, Or.inr (Or.inr rfl)⟩, Nat.le_refl _⟩
    · rcases hstep.of_write (hact hstage) with ⟨piece, -, -, -, rfl⟩ | ⟨-, hdone, -⟩ |
        ⟨-, -, hreader, -⟩ | ⟨hend, -⟩
      · refine ⟨?_, Nat.le_of_eq (by rw [content_push_of_ne s .server (by decide)])⟩
        rw [State.server, procs_push]
        exact ⟨h.server.1, Or.inr (Or.inr hstage)⟩
      · -- the whole body would be in the pipe
        have hwritten := h.invariant.server.written
        have hcontent := h.invariant.conserved .p2c
        have hfull := h.within .p2c
        have htake : handedOver x.body s.server.progress s.server.state = x.body := by
          rw [hstage]
          exact List.take_of_length_le (Nat.le_of_eq hdone.symm)
        rw [h.taken, List.nil_append, hwritten, htake] at hcontent
        rw [← hcontent] at hfull
        omega
      · exact absurd h.hasReader hreader
      · rw [h.invariant.server_ends h.server.1 hstage] at hend
        exact absurd (by decide) hend
  refine ⟨h.invariant.step hstep, hstep.within_capacity h.within, hrest.1, ?_, ?_, ?_, ?_⟩
  · rw [hscript]
    exact h.script
  · rw [State.script, hscript]
    exact h.program
  · rw [taken_p2c_of_server hstep]
    exact h.taken
  · rw [hscript]
    exact h.printed.trans hrest.2

/-- The script does another of the calls in front of its program. -/
theorem Stalled.goto (h : Stalled capacity atomic s) {stage : ScriptStage x.γ}
    {ends : List (End Pipe)} (hinv : Invariant atomic (s.goto .script stage ends))
    (hstage : ∀ g, stage = .running g →
      g = x.main ∧ .reading .p2c ∈ ends ∧ .writing .c2p ∈ ends) :
    Stalled capacity atomic (s.goto .script stage ends) where
  invariant := hinv
  within := h.within
  server := h.server
  script := rfl
  program := hstage
  taken := h.taken
  printed := Nat.zero_le _

theorem Stalled.script_step (h : Stalled capacity atomic s) {data : Str} {g : x.γ}
    (hprogram : x.program x.main = .write .c2p data g) (hdata : capacity .c2p < data.length)
    (hstep : Step x.act capacity atomic .script s s') : Stalled capacity atomic s' := by
  have hinv := h.invariant.step hstep
  have hact : ∀ {stage}, s.script.state = stage →
      x.act .script (s.procs .script).state = scriptAct x.program x.main stage :=
    congrArg (scriptAct x.program x.main)
  have hends : ScriptEnds (s.procs .script).ends s.script.state := h.invariant.script.ends h.script
  cases hstage : s.script.state with
  | dupStdin =>
    rw [hstep.of_dup (hact hstage)] at hinv ⊢
    exact h.goto hinv fun _ hg => by cases hg
  | closeP2cRead | closeP2cWrite | closeC2pWrite =>
    rw [hstep.of_close (hact hstage)] at hinv ⊢
    exact h.goto hinv fun _ hg => by cases hg
  | dupStdout =>
    rw [hstep.of_dup (hact hstage)] at hinv ⊢
    exact h.goto hinv fun _ hg => by cases hg
  | closeC2pRead =>
    rw [hstage] at hends
    change (s.procs .script).ends = _ at hends
    rw [hstep.of_close (hact hstage), hends] at hinv ⊢
    refine h.goto hinv fun g hg => ?_
    cases hg
    exact ⟨rfl, by decide, by decide⟩
  | running g' =>
    obtain ⟨rfl, hreading, hwriting⟩ := h.program g' hstage
    have hwrite : x.act .script (s.procs .script).state = .write .c2p data (.running g) := by
      rw [hact hstage]
      exact congrArg (Action.map ScriptStage.running) hprogram
    rcases hstep.of_write hwrite with ⟨piece, -, -, -, rfl⟩ | ⟨-, hdone, -⟩ | ⟨-, -, hreader, -⟩ |
      ⟨hend, -⟩
    · have hproc : (s.push .script .c2p piece).procs .script =
          { s.procs .script with progress := (s.procs .script).progress + piece.length } :=
        procs_push s .script .c2p piece
      refine ⟨hinv, hstep.within_capacity h.within, h.server, ?_, ?_, h.taken, ?_⟩
      · rw [hproc]
        exact h.script
      · rw [State.script, hproc]
        exact h.program
      · rw [hproc, content_push, List.length_append]
        exact Nat.add_le_add_right h.printed _
    · -- all of the data would be in the pipe
      have hprinted := h.printed
      have hfull := h.within .c2p
      omega
    · refine absurd ⟨.server, ?_⟩ hreader
      rcases h.server.2 with hserver | hserver | hserver <;>
      · rw [h.invariant.server_ends h.server.1 hserver]
        decide
    · exact absurd hwriting hend

/-- A script that prints more than its pipe has room for before it reads holds up a server whose
body is more than its pipe has room for, however the two interleave. -/
theorem Reachable.never_ends (h : Reachable capacity atomic s) {data : Str} {g : x.γ}
    (hprogram : x.program x.main = .write .c2p data g) (hdata : capacity .c2p < data.length)
    (hbody : capacity .p2c < x.body.length) : ¬ Ended s .server := by
  have hstalled : Stalled capacity atomic s := by
    refine h.induction stalled_start fun p s s' hstep hs => ?_
    cases p with
    | server => exact hs.server_step hbody hstep
    | script => exact hs.script_step hprogram hdata hstep
  exact fun hended => hended hstalled.server.1

theorem never_ends_printing : ∃ s : State printingExchange,
    WaitsToWrite printingExchange.act (fun _ => 1) 1 s .server .p2c ∧ ¬ Ended s .server := by
  obtain ⟨s, hs, hwaits, -⟩ := printingExchange_reaches
  exact ⟨s, hwaits, Reachable.never_ends hs rfl (by decide) (by decide)⟩

end CgiExchange

end Webserv
