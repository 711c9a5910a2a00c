import RsmpGateway.Gateway.Dispatch
import RsmpGateway.Gateway.Versions

/-!
# The exchange of versions, stage by stage

`echange_versions` is one function that sends and waits in turn. To interleave it with the other
side it is cut where it sends or receives: a stage is what it does until then.

* `Stage.next` is the step from one stage to the next. That nothing is added or left out by the
  cut is `Played.finished`: the stages that a side comes to make up the function as it is
  translated in `Rsmp/Negotiation.lean`.
* `Story` says what was sent and received when a side is in a stage, and `Played.story` that this
  is so in every stage that it comes to.

The halves (a version is sent; a version is received) come in the order of the role of the side:
the one that has opened the connection sends first.
-/

namespace RsmpGateway.Gateway

open RsmpGateway.Lib RsmpGateway.Rsmp

/-! ## The stages

A stage stands before a `sendMessage` or before the answer of a `waitForMessage`. Each half has
two of them: the `Version` is sent and its acknowledgement awaited, or the `Version` is awaited
and its acknowledgement sent. The result of the function is the last stage. -/

/-- What a side does next. The other half comes after this one where there is `more`. -/
inductive Stage
  | sendVersion (more : Bool)
  | waitAck (more : Bool)
  | waitVersion (more : Bool)
  | sendAck (m : Message) (more : Bool)
  | finished (r : VersionResult)

/-- The first thing that `echange_versions` does. -/
def Stage.first (leader : Bool) : Stage := if leader then .waitVersion true else .sendVersion true

/-- A half, and the other one where there is more. -/
def VersionRun.before (half other : VersionRun) (more : Bool) : VersionRun :=
  if more then half.andThen other else half

section Side

variable (X : RsmpExt) (env : VersionEnv)

/-- What is sent and received in a stage, and the next one. -/
def Stage.next : Stage → List VersionEvent × Stage
  | .sendVersion more =>
    match sendMessage X env.versionSend (ownVersion env.birth) with
    | .stops => ([], .finished .stops)
    | sending => (sentLog (ownVersion env.birth) sending, .waitAck more)
  | .waitAck more =>
    match waitForMessage X env.ackWait with
    | .failed => ([], .finished .error)
    | .stops => ([], .finished .stops)
    | .msg m =>
      ([.received m],
        if m.1 = .messageAck then if more then .waitVersion false else .finished .ok
        else .finished .error)
  | .waitVersion more =>
    match waitForMessage X env.versionWait with
    | .failed => ([], .finished .error)
    | .stops => ([], .finished .stops)
    | .msg m => ([.received m], if m.1 = .version then .sendAck m more else .finished .error)
  | .sendAck m more =>
    match messageAckTo m with
    | none => ([], .finished .stops)
    | some answer =>
      match sendMessage X env.ackSend answer with
      | .sent => ([.sent answer], if more then .sendVersion false else .finished .ok)
      | .failed => ([], .finished .error)
      | .stops => ([], .finished .stops)
  | .finished r => ([], .finished r)

/-- The wait of a stage, if it waits. -/
def Stage.wait : Stage → Option Wait
  | .waitAck _ => some env.ackWait
  | .waitVersion _ => some env.versionWait
  | _ => none

/-- What a stage still does of `echange_versions`. -/
def Stage.rest : Stage → VersionRun
  | .sendVersion more =>
    (sendVersionAndWaitAck X env).before (waitVersionAndSendAck X env) more
  | .waitAck more =>
    let half : VersionRun :=
      match waitForMessage X env.ackWait with
      | .failed => ([], .error)
      | .stops => ([], .stops)
      | .msg m => ([.received m], if m.1 = .messageAck then .ok else .error)
    half.before (waitVersionAndSendAck X env) more
  | .waitVersion more =>
    (waitVersionAndSendAck X env).before (sendVersionAndWaitAck X env) more
  | .sendAck m more =>
    let half : VersionRun :=
      match messageAckTo m with
      | none => ([], .stops)
      | some answer =>
        match sendMessage X env.ackSend answer with
        | .sent => ([.sent answer], .ok)
        | .failed => ([], .error)
        | .stops => ([], .stops)
    half.before (sendVersionAndWaitAck X env) more
  | .finished r => ([], r)

/-- The stages that a side comes to, and what it has sent and received then. -/
inductive Played (leader : Bool) : List VersionEvent → Stage → Prop
  | first : Played leader [] (.first leader)
  | next {log stage} : Played leader log stage →
    Played leader (log ++ (stage.next X env).1) (stage.next X env).2

end Side

variable {X : RsmpExt} {env : VersionEnv}

theorem Stage.rest_first (leader : Bool) :
    (Stage.first leader).rest X env = echangeVersions X leader env := by
  cases leader <;> rfl

@[simp] theorem before_last (half other : VersionRun) : half.before other false = half := rfl

/-- A half that fails is all of it. -/
@[simp] theorem before_error (log : List VersionEvent) (other : VersionRun) (more : Bool) :
    VersionRun.before (log, .error) other more = (log, .error) := by
  cases more <;> rfl

@[simp] theorem before_stops (log : List VersionEvent) (other : VersionRun) (more : Bool) :
    VersionRun.before (log, .stops) other more = (log, .stops) := by
  cases more <;> rfl

@[simp] theorem before_ok (log : List VersionEvent) (other : VersionRun) (more : Bool) :
    VersionRun.before (log, .ok) other more =
      if more then (log ++ other.1, other.2) else (log, .ok) := by
  cases more <;> rfl

/-- A stage does what it does, and the next one what is left. -/
theorem Stage.rest_next (stage : Stage) :
    stage.rest X env =
      ((stage.next X env).1 ++ ((stage.next X env).2.rest X env).1,
        ((stage.next X env).2.rest X env).2) := by
  cases stage with
  | sendVersion more =>
    simp only [next, rest, sendVersionAndWaitAck]
    cases sendMessage X env.versionSend (ownVersion env.birth) with
    | stops => simp
    | sent =>
      cases waitForMessage X env.ackWait with
      | failed => simp [sentLog]
      | stops => simp [sentLog]
      | msg m => by_cases hack : m.1 = .messageAck <;> cases more <;> simp [sentLog, hack]
    | failed =>
      cases waitForMessage X env.ackWait with
      | failed => simp [sentLog]
      | stops => simp [sentLog]
      | msg m => simp [sentLog]
  | waitAck more =>
    simp only [next, rest]
    cases waitForMessage X env.ackWait with
    | failed => simp
    | stops => simp
    | msg m => by_cases hack : m.1 = .messageAck <;> cases more <;> simp [hack]
  | waitVersion more =>
    simp only [next, rest, waitVersionAndSendAck]
    cases waitForMessage X env.versionWait with
    | failed => simp
    | stops => simp
    | msg m =>
      by_cases hversion : m.1 = .version
      · simp only [hversion, if_true]
        cases messageAckTo m with
        | none => simp
        | some answer =>
          dsimp only
          cases sendMessage X env.ackSend answer <;> cases more <;> simp
      · simp [hversion]
  | sendAck m more =>
    simp only [next, rest]
    cases messageAckTo m with
    | none => simp
    | some answer =>
      dsimp only
      cases sendMessage X env.ackSend answer <;> cases more <;> simp
  | finished r => rfl

/-- What a side has done when it is over is its exchange. -/
theorem Played.finished {leader : Bool} {log : List VersionEvent} {r : VersionResult}
    (h : Played X env leader log (.finished r)) : echangeVersions X leader env = (log, r) := by
  have hrest : ∀ {log stage}, Played X env leader log stage →
      echangeVersions X leader env = (log ++ (stage.rest X env).1, (stage.rest X env).2) := by
    intro log stage hplayed
    induction hplayed with
    | first => rw [Stage.rest_first, List.nil_append]
    | next _ ih => rw [ih, Stage.rest_next, List.append_assoc]
  rw [hrest h, Stage.rest, List.append_nil]

/-! ### What a stage does

A stage sends at most one message and takes at most one. `Does` lists the ways it can end, each
with what is sent and with the stage that comes after. -/

/-- What is sent and received in a stage, and the next one. -/
inductive Does (X : RsmpExt) (env : VersionEnv) : Stage → List VersionEvent → Stage → Prop
  | finished {r} : Does X env (.finished r) [] (.finished r)
  | fails {stage r} : stage ≠ .finished .ok → r ≠ .ok → Does X env stage [] (.finished r)
  | /-- a message of another type -/
    refuses {stage w m} : stage.wait env = some w → w.Gives X m →
      Does X env stage [.received m] (.finished .error)
  | unsent {more} : Does X env (.sendVersion more) [] (.waitAck more)
  | sends {more} : Does X env (.sendVersion more) [.sent (ownVersion env.birth)] (.waitAck more)
  | acked {m more} : env.ackWait.Gives X m → m.1 = .messageAck →
      Does X env (.waitAck more) [.received m] (if more then .waitVersion false else .finished .ok)
  | reads {m more} : env.versionWait.Gives X m → m.1 = .version →
      Does X env (.waitVersion more) [.received m] (.sendAck m more)
  | answers {m answer more} : messageAckTo m = some answer →
      Does X env (.sendAck m more) [.sent answer]
        (if more then .sendVersion false else .finished .ok)

theorem Stage.next_does (stage : Stage) :
    Does X env stage (stage.next X env).1 (stage.next X env).2 := by
  cases stage with
  | sendVersion more =>
    rw [next]
    split
    · exact .fails Stage.noConfusion (by decide)
    · next hsending =>
      cases hsend : sendMessage X env.versionSend (ownVersion env.birth) with
      | sent => exact .sends
      | failed => exact .unsent
      | stops => exact absurd hsend hsending
  | waitAck more =>
    rw [next]
    -- what the wait gives: the end of the process, nothing, or a message
    rcases waitForMessage_cases X env.ackWait with ⟨h, -⟩ | ⟨h, -, -⟩ | ⟨m, h, -, hgives⟩
    · rw [h]
      exact .fails Stage.noConfusion (by decide)
    · rw [h]
      exact .fails Stage.noConfusion (by decide)
    · rw [h]
      dsimp only
      split
      · next hack => exact .acked ((hgives m).mpr rfl) hack
      · exact .refuses rfl ((hgives m).mpr rfl)
  | waitVersion more =>
    rw [next]
    rcases waitForMessage_cases X env.versionWait with ⟨h, -⟩ | ⟨h, -, -⟩ | ⟨m, h, -, hgives⟩
    · rw [h]
      exact .fails Stage.noConfusion (by decide)
    · rw [h]
      exact .fails Stage.noConfusion (by decide)
    · rw [h]
      dsimp only
      split
      · next hversion => exact .reads ((hgives m).mpr rfl) hversion
      · exact .refuses rfl ((hgives m).mpr rfl)
  | sendAck m more =>
    rw [next]
    split
    · exact .fails Stage.noConfusion (by decide)
    · next answer hanswer =>
      split
      · exact .answers hanswer
      · exact .fails Stage.noConfusion (by decide)
      · exact .fails Stage.noConfusion (by decide)
  | finished r => exact .finished

/-! ### What was done before a stage

`Story` reads the log of a side from the stage that it has come to: which `Version` it has sent,
which one it has received, and whether they were acknowledged. Where a stage is depends on the
role of the side. -/

/-- The halves are in the order of the role. -/
def Stage.InOrder (leader : Bool) : Stage → Prop
  | .sendVersion more => more = !leader
  | .waitAck more => more = !leader
  | .waitVersion more => more = leader
  | .sendAck _ more => more = leader
  | .finished _ => True

/-- The acknowledgement has arrived. -/
def Stage.Acked : Stage → Prop
  | .sendVersion _ => False
  | .waitAck _ => False
  | .waitVersion more => more = false
  | .sendAck _ more => more = false
  | .finished r => r = .ok

/-- The `Version` of the other side is acknowledged. -/
def Stage.Answered : Stage → Prop
  | .sendVersion more => more = false
  | .waitAck more => more = false
  | .waitVersion _ => False
  | .sendAck _ _ => False
  | .finished r => r = .ok

/-- What a side has sent and received in a stage. -/
structure Story (env : VersionEnv) (leader : Bool) (log : List VersionEvent) (stage : Stage) :
    Prop where
  order : stage.InOrder leader
  read : ∀ m more, stage = .sendAck m more → .received m ∈ log ∧ m.1 = .version
  /-- nothing is sent but the `Version`, and the acknowledgement of the other one -/
  sent : ∀ m, .sent m ∈ log → m = ownVersion env.birth ∨
    ∃ version, .received version ∈ log ∧ version.1 = .version ∧ messageAckTo version = some m
  /-- which comes last for the follower -/
  last : leader = false → ∀ m, .sent m ∈ log → m.1 = .messageAck → stage = .finished .ok
  acked : stage.Acked → ∃ ack, .received ack ∈ log ∧ ack.1 = .messageAck ∧
    (.sent (ownVersion env.birth) ∈ log →
      [.sent (ownVersion env.birth), .received ack].Sublist log)
  answered : stage.Answered → ∃ version answer,
    [.received version, .sent answer].Sublist log ∧ version.1 = .version ∧
      messageAckTo version = some answer

theorem messageAckTo_type {m answer : Message} (h : messageAckTo m = some answer) :
    answer.1 = .messageAck := by
  rw [messageAckTo] at h
  split at h
  · obtain ⟨mId, -, rfl⟩ := Option.map_eq_some_iff.mp h
    rfl
  · cases h

theorem Story.first (env : VersionEnv) (leader : Bool) : Story env leader [] (.first leader) where
  order := by cases leader <;> rfl
  read := by
    intro m more h
    cases leader <;> cases h
  sent := by
    intro m h
    cases h
  last := by
    intro _ m h
    cases h
  acked := by
    intro h
    cases leader <;> cases h
  answered := by
    intro h
    cases leader <;> cases h

/-! ### One stage more

One lemma for each way a stage can end, and from them the step. What was sent stays sent; a stage
adds to the log what it does and nothing else. -/

section Story

variable {leader : Bool} {log es : List VersionEvent} {stage stage' : Stage}

/-- What is sent was sent before, or now. -/
theorem Story.sent_append (h : Story env leader log stage) {m : Message}
    (hm : .sent m ∈ log ++ es) (hes : .sent m ∈ es → m = ownVersion env.birth ∨
      ∃ version, .received version ∈ log ∧ version.1 = .version ∧
        messageAckTo version = some m) :
    m = ownVersion env.birth ∨ ∃ version, .received version ∈ log ++ es ∧
      version.1 = .version ∧ messageAckTo version = some m := by
  have hlog : (m = ownVersion env.birth ∨ ∃ version, .received version ∈ log ∧
      version.1 = .version ∧ messageAckTo version = some m) := by
    rcases List.mem_append.mp hm with hm | hm
    · exact h.sent m hm
    · exact hes hm
  rcases hlog with hown | ⟨version, hread, hversion, hanswer⟩
  · exact .inl hown
  · exact .inr ⟨version, List.mem_append_left _ hread, hversion, hanswer⟩

/-- A stage in which nothing is sent that counts. -/
theorem Story.keep (h : Story env leader log stage) (horder : stage'.InOrder leader)
    (hread : ∀ m more, stage' = .sendAck m more → .received m ∈ es ∧ m.1 = .version)
    (hes : ∀ m, .sent m ∉ es) (hover : stage ≠ .finished .ok)
    (hacked : stage'.Acked → stage.Acked ∨ ∃ ack, es = [.received ack] ∧ ack.1 = .messageAck)
    (hanswered : stage'.Answered → stage.Answered) : Story env leader (log ++ es) stage' where
  order := horder
  read m more hstage := ⟨List.mem_append_right _ (hread m more hstage).1, (hread m more hstage).2⟩
  sent m hm := h.sent_append hm fun hmem => absurd hmem (hes m)
  last hleader m hm hack := by
    rcases List.mem_append.mp hm with hm | hm
    · exact absurd (h.last hleader m hm hack) hover
    · exact absurd hm (hes m)
  acked hstage := by
    have hown : .sent (ownVersion env.birth) ∈ log ++ es → .sent (ownVersion env.birth) ∈ log := by
      intro hmem
      rcases List.mem_append.mp hmem with hmem | hmem
      · exact hmem
      · exact absurd hmem (hes _)
    rcases hacked hstage with hstage | ⟨ack, rfl, hack⟩
    · obtain ⟨ack, hread, hack, hsub⟩ := h.acked hstage
      exact ⟨ack, List.mem_append_left _ hread, hack,
        fun hmem => (hsub (hown hmem)).trans (List.sublist_append_left _ _)⟩
    · refine ⟨ack, List.mem_append_right _ (List.mem_singleton_self _), hack, fun hmem => ?_⟩
      exact (List.singleton_sublist.mpr (hown hmem)).append (List.Sublist.refl _)
  answered hstage := by
    obtain ⟨version, answer, hsub, hversion⟩ := h.answered (hanswered hstage)
    exact ⟨version, answer, hsub.trans (List.sublist_append_left _ _), hversion⟩

/-- A stage that fails: nothing was sent, and it is over. -/
theorem Story.fails (h : Story env leader log stage) {r : VersionResult}
    (hstage : stage ≠ .finished .ok) (hr : r ≠ .ok) :
    Story env leader (log ++ []) (.finished r) := by
  refine h.keep trivial ?_ ?_ hstage (fun hok => absurd hok hr) fun hok => absurd hok hr
  · intro m more hsend
    cases hsend
  · intro m hm
    cases hm

/-- A message that is refused ends the exchange with an error. -/
theorem Story.refuses (h : Story env leader log stage) (m : Message)
    (hstage : stage ≠ .finished .ok) :
    Story env leader (log ++ [.received m]) (.finished .error) := by
  refine h.keep trivial ?_ ?_ hstage ?_ ?_
  · intro m more hsend
    cases hsend
  · intro m hm
    cases List.mem_singleton.mp hm
  · intro hok
    cases hok
  · intro hok
    cases hok

/-- The `Version` that could not be sent is waited for all the same. -/
theorem Story.unsent {more : Bool} (h : Story env leader log (.sendVersion more)) :
    Story env leader (log ++ []) (.waitAck more) := by
  refine h.keep h.order ?_ ?_ Stage.noConfusion False.elim fun hmore => hmore
  · intro m more hsend
    cases hsend
  · intro m hm
    cases hm

/-- The `Version` of the other side is read. -/
theorem Story.reads {more : Bool} {m : Message} (h : Story env leader log (.waitVersion more))
    (hversion : m.1 = .version) : Story env leader (log ++ [.received m]) (.sendAck m more) := by
  refine h.keep h.order ?_ ?_ Stage.noConfusion .inl False.elim
  · intro m' more' hsend
    cases hsend
    exact ⟨List.mem_singleton_self _, hversion⟩
  · intro m hm
    cases List.mem_singleton.mp hm

/-- The acknowledgement has come. -/
theorem Story.acks {more : Bool} {m : Message} (h : Story env leader log (.waitAck more))
    (hack : m.1 = .messageAck) :
    Story env leader (log ++ [.received m])
      (if more then .waitVersion false else .finished .ok) := by
  have horder : more = !leader := h.order
  refine h.keep ?_ ?_ ?_ Stage.noConfusion (fun _ => .inr ⟨m, rfl, hack⟩) ?_
  · cases more with
    | false => trivial
    | true =>
      cases leader with
      | false => rfl
      | true => cases horder
  · intro m more' hsend
    cases more <;> cases hsend
  · intro m hm
    cases List.mem_singleton.mp hm
  · cases more with
    | false => exact fun _ => rfl
    | true => exact False.elim

/-- The `Version` is sent: the acknowledgement has not come yet. -/
theorem Story.sends {more : Bool} (h : Story env leader log (.sendVersion more)) :
    Story env leader (log ++ [.sent (ownVersion env.birth)]) (.waitAck more) where
  order := h.order
  read := by
    intro m more' hsend
    cases hsend
  sent := by
    intro m hm
    refine h.sent_append hm fun hmem => ?_
    cases List.mem_singleton.mp hmem
    exact .inl rfl
  last := by
    intro hleader m hm hack
    rcases List.mem_append.mp hm with hm | hm
    · cases h.last hleader m hm hack
    · cases List.mem_singleton.mp hm
      cases hack
  acked := False.elim
  answered := by
    intro hmore
    obtain ⟨version, answer, hsub, hversion⟩ := h.answered hmore
    exact ⟨version, answer, hsub.trans (List.sublist_append_left _ _), hversion⟩

/-- The acknowledgement is sent, to a `Version` that was read. -/
theorem Story.answers {more : Bool} {m answer : Message}
    (h : Story env leader log (.sendAck m more)) (hanswer : messageAckTo m = some answer) :
    Story env leader (log ++ [.sent answer])
      (if more then .sendVersion false else .finished .ok) := by
  obtain ⟨hread, hversion⟩ := h.read m more rfl
  have horder : more = leader := h.order
  have hown : ownVersion env.birth ≠ answer := by
    rintro rfl
    cases messageAckTo_type hanswer
  constructor
  · cases more with
    | false => trivial
    | true =>
      cases leader with
      | false => cases horder
      | true => rfl
  · intro m' more' hsend
    cases more <;> cases hsend
  · intro m' hm
    refine h.sent_append hm fun hmem => ?_
    cases List.mem_singleton.mp hmem
    exact .inr ⟨m, hread, hversion, hanswer⟩
  · rintro rfl _ _ _
    rw [horder]
    rfl
  · intro hacked
    cases more with
    | true => exact hacked.elim
    | false =>
      obtain ⟨ack, hread, hack, hsub⟩ := h.acked rfl
      refine ⟨ack, List.mem_append_left _ hread, hack, fun hmem => ?_⟩
      rcases List.mem_append.mp hmem with hmem | hmem
      · exact (hsub hmem).trans (List.sublist_append_left _ _)
      · cases List.mem_singleton.mp hmem
        exact absurd rfl hown
  · intro _
    refine ⟨m, answer, ?_, hversion, hanswer⟩
    exact (List.singleton_sublist.mpr hread).append (List.Sublist.refl _)

theorem Story.next (h : Story env leader log stage) (hdoes : Does X env stage es stage') :
    Story env leader (log ++ es) stage' := by
  cases hdoes with
  | finished => rwa [List.append_nil]
  | fails hstage hr => exact h.fails hstage hr
  | @refuses _ w m hwait hgives =>
    apply h.refuses m
    rintro rfl
    cases hwait
  | unsent => exact h.unsent
  | sends => exact h.sends
  | acked hgives hack => exact h.acks hack
  | reads hgives hversion => exact h.reads hversion
  | answers hanswer => exact h.answers hanswer

theorem Played.story (h : Played X env leader log stage) : Story env leader log stage := by
  induction h with
  | first => exact .first env leader
  | next _ ih => exact ih.next (Stage.next_does _)

end Story

end RsmpGateway.Gateway
