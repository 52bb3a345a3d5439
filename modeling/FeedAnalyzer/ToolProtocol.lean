import Mathlib.Data.List.Basic

/-!
# Tool calls and their results

`validate` accepts exactly the conversations in which every tool call is answered once, in
an unbroken row of tool messages, and every tool message answers such a call.
-/

namespace Gateway.Contract

open List

inductive Role where
  | system | developer | user | assistant | tool
  deriving DecidableEq

/-- A message that is well formed by itself, with the ids of its tool calls. -/
structure Message where
  role : Role
  toolCallId : Option String
  calls : List String
  calls_assistant : role ≠ .assistant → calls = []

/-- The messages of the `GatewayError`s. -/
inductive Refused where
  | notFollowed | unknownId | notUnique | missingResults
  deriving DecidableEq

def Refused.text : Refused → String
  | .notFollowed => "Tool calls must be followed by their results"
  | .unknownId => "Unknown or duplicate tool_call_id"
  | .notUnique => "Tool call IDs must be unique"
  | .missingResults => "Missing tool results"

/-- `pending` and `ids`. -/
abbrev Sets : Type := List String × List String

/-- One call of a message. -/
def addCall (sets : Sets) (id : String) : Except Refused Sets :=
  if id ∈ sets.2 then .error .notUnique else .ok (id :: sets.1, id :: sets.2)

/-- One turn of the loop over the messages. -/
def addMessage (sets : Sets) (m : Message) : Except Refused Sets :=
  if m.role = .tool then
    match m.toolCallId with
    | none => .error .unknownId
    | some id =>
      if id ∈ sets.1 then m.calls.foldlM addCall (sets.1.filter (· ≠ id), sets.2)
      else .error .unknownId
  else if sets.1 ≠ [] then .error .notFollowed
  else m.calls.foldlM addCall sets

/-- The checks of `validate` on tool calls, from some sets on. -/
def checkFrom (sets : Sets) (messages : List Message) : Except Refused Unit := do
  let sets ← messages.foldlM addMessage sets
  if sets.1 ≠ [] then throw .missingResults

def Message.answers (id : String) (m : Message) : Bool := m.role = .tool && m.toolCallId = some id

/-- A message answers the call, after tool messages only. -/
def Answered (id : String) (messages : List Message) : Prop :=
  ∃ between m rest, messages = between ++ m :: rest ∧ m.answers id = true ∧
    (∀ other ∈ between, other.role = .tool) ∧ ∀ other ∈ between ++ rest, other.answers id = false

/-- **The tool protocol** of the rest of a conversation. -/
structure Protocol (pending ids : List String) (messages : List Message) : Prop where
  unique : (messages.flatMap Message.calls).Nodup
  fresh : ∀ id ∈ messages.flatMap Message.calls, id ∉ ids
  awaited : ∀ id ∈ pending, Answered id messages
  answered : ∀ before m after, messages = before ++ m :: after →
    ∀ id ∈ m.calls, Answered id after
  answers : ∀ before m after, messages = before ++ m :: after → m.role = .tool →
    ∃ id, m.toolCallId = some id ∧ (id ∈ pending ∨ id ∈ before.flatMap Message.calls)

variable {id : String} {m : Message} {rest : List Message} {pending ids : List String}

theorem forall_split_cons {α : Type} {x : α} {xs : List α} {Q : List α → α → List α → Prop} :
    (∀ b m a, x :: xs = b ++ m :: a → Q b m a) ↔
      Q [] x xs ∧ ∀ b m a, xs = b ++ m :: a → Q (x :: b) m a := by
  refine ⟨fun h => ⟨h [] x xs rfl, fun b m a heq => h (x :: b) m a (by rw [heq]; rfl)⟩, ?_⟩
  rintro ⟨hfirst, hlater⟩ b m a heq
  cases b with
  | nil => cases heq; exact hfirst
  | cons y b => cases heq; exact hlater b m a rfl

theorem answered_cons : Answered id (m :: rest) ↔ m.role = .tool ∧
    (if m.answers id then ∀ other ∈ rest, other.answers id = false else Answered id rest) := by
  constructor
  · rintro ⟨between, t, later, heq, hanswers, htools, hothers⟩
    cases between with
    | nil => cases heq; grind [Message.answers]
    | cons x between =>
      cases heq
      refine ⟨htools _ mem_cons_self, ?_⟩
      rw [hothers _ mem_cons_self]
      exact ⟨between, t, later, rfl, hanswers, by grind, by grind⟩
  · rintro ⟨htool, h⟩
    split at h
    · next hanswers => exact ⟨[], m, rest, rfl, hanswers, nofun, h⟩
    · next hanswers =>
      obtain ⟨between, t, later, rfl, hanswers', htools, hothers⟩ := h
      exact ⟨m :: between, t, later, rfl, hanswers', by grind, by grind⟩

/-- A tool message takes its id from those that are awaited. -/
theorem protocol_tool (htool : m.role = .tool) (hsub : ∀ id ∈ pending, id ∈ ids) :
    Protocol pending ids (m :: rest) ↔ ∃ id ∈ pending, m.toolCallId = some id ∧
      Protocol (pending.filter (· ≠ id)) ids rest := by
  have hcalls : m.calls = [] := m.calls_assistant (by simp [htool])
  constructor
  · rintro ⟨hunique, hfresh, hawaited, hanswered, hanswers⟩
    rw [forall_split_cons] at hanswered hanswers
    obtain ⟨id, hid, hpending⟩ := hanswers.1 htool
    have hpending : id ∈ pending := by simpa using hpending
    have hlast := (answered_cons.mp (hawaited id hpending)).2
    rw [if_pos (by simp [Message.answers, htool, hid])] at hlast
    refine ⟨id, hpending, hid, by grind, by grind, by grind [answered_cons, Message.answers],
      hanswered.2, fun before t after heq ht => ?_⟩
    obtain ⟨id', hid', hmem⟩ := hanswers.2 before t after heq ht
    refine ⟨id', hid', ?_⟩
    have hother := hlast t (by simp [heq])
    rw [flatMap_cons, hcalls] at hmem
    grind [Message.answers]
  · rintro ⟨id, hpending, hid, hunique, hfresh, hawaited, hanswered, hanswers⟩
    have hlast : ∀ other ∈ rest, other.answers id = false := by
      intro other hother
      obtain ⟨before, after, heq⟩ := append_of_mem hother
      have hanswer := hanswers before other after heq
      grind [Message.answers]
    refine ⟨by grind, by grind, ?_, forall_split_cons.mpr ⟨by grind, hanswered⟩,
      forall_split_cons.mpr ⟨fun _ => ⟨id, hid, Or.inl hpending⟩, ?_⟩⟩
    · grind [answered_cons, Message.answers]
    · intro before t after heq ht
      obtain ⟨id', hid', hmem⟩ := hanswers before t after heq ht
      exact ⟨id', hid', by grind⟩

/-- Any other message comes when nothing is awaited, and its calls are awaited next. -/
theorem protocol_other (htool : m.role ≠ .tool) :
    Protocol pending ids (m :: rest) ↔ pending = [] ∧ m.calls.Nodup ∧ (∀ id ∈ m.calls, id ∉ ids) ∧
      Protocol (m.calls.reverse ++ pending) (m.calls.reverse ++ ids) rest := by
  constructor
  · rintro ⟨hunique, hfresh, hawaited, hanswered, hanswers⟩
    rw [forall_split_cons] at hanswered hanswers
    rw [flatMap_cons] at hunique hfresh
    have hempty : pending = [] := by
      refine eq_nil_iff_forall_not_mem.mpr fun id hid => ?_
      exact htool (answered_cons.mp (hawaited id hid)).1
    obtain ⟨hown, hlater, hdisjoint⟩ := nodup_append.mp hunique
    refine ⟨hempty, hown, by grind, hlater, by grind, by grind, hanswered.2, ?_⟩
    intro before t after heq ht
    obtain ⟨id, hid, hmem⟩ := hanswers.2 before t after heq ht
    exact ⟨id, hid, by grind⟩
  · rintro ⟨rfl, hown, hnew, hunique, hfresh, hawaited, hanswered, hanswers⟩
    refine ⟨?_, by grind, nofun, forall_split_cons.mpr ⟨by grind, hanswered⟩,
      forall_split_cons.mpr ⟨fun h => absurd h htool, ?_⟩⟩
    · rw [flatMap_cons]
      exact nodup_append.mpr ⟨hown, hunique, by grind⟩
    · intro before t after heq ht
      obtain ⟨id, hid, hmem⟩ := hanswers before t after heq ht
      exact ⟨id, hid, by grind⟩

theorem protocol_nil : Protocol pending ids [] ↔ pending = [] := by
  constructor
  · intro h
    refine eq_nil_iff_forall_not_mem.mpr fun id hid => ?_
    obtain ⟨between, m, rest, heq, -⟩ := h.awaited id hid
    cases between <;> cases heq
  · rintro rfl
    refine ⟨by simp, by simp, nofun, ?_, ?_⟩ <;>
    · intro before m after heq
      cases before <;> cases heq

theorem foldlM_addCall (calls : List String) (sets : Sets) :
    calls.foldlM addCall sets =
      if calls.Nodup ∧ ∀ id ∈ calls, id ∉ sets.2 then
        .ok (calls.reverse ++ sets.1, calls.reverse ++ sets.2)
      else .error .notUnique := by
  induction calls generalizing sets with
  | nil => simp; rfl
  | cons id calls ih =>
    rw [foldlM_cons, addCall]
    by_cases hid : id ∈ sets.2
    · simp [hid]; rfl
    · simp only [hid, if_false]
      refine (ih _).trans ?_
      grind

theorem checkFrom_cons (sets : Sets) :
    checkFrom sets (m :: rest) = addMessage sets m >>= fun sets => checkFrom sets rest := by
  simp [checkFrom]

/-- **The scan accepts exactly the protocol**, from any sets on. -/
theorem checkFrom_eq_ok_iff (messages : List Message) (sets : Sets)
    (hsub : ∀ id ∈ sets.1, id ∈ sets.2) :
    checkFrom sets messages = .ok () ↔ Protocol sets.1 sets.2 messages := by
  induction messages generalizing sets with
  | nil =>
    rw [protocol_nil]
    by_cases hempty : sets.1 = []
    · simp [checkFrom, hempty]
      rfl
    · simp [checkFrom, hempty]
  | cons m rest ih =>
    have herror : ∀ e, (.error e >>= fun sets => checkFrom sets rest) ≠ .ok () := nofun
    rw [checkFrom_cons, addMessage]
    split
    · next htool =>
      rw [protocol_tool htool hsub, m.calls_assistant (by simp [htool])]
      split
      · next hid => simp [hid, herror]
      · next id hid =>
        split
        · refine (ih (sets.1.filter (· ≠ id), sets.2) (by grind)).trans ?_
          grind
        · simp [herror]
          grind
    · next htool =>
      rw [protocol_other htool, foldlM_addCall]
      split
      · simp [herror]
        grind
      · split
        · refine (ih (_, _) (by grind)).trans ?_
          grind
        · simp [herror]
          grind

/-- **What `validate` accepts of tool calls**: ids are unique, every call is answered by
exactly one later tool message with only such in between, and every tool message answers a
call. -/
theorem tool_checks_iff (messages : List Message) :
    checkFrom ([], []) messages = .ok () ↔ Protocol [] [] messages :=
  checkFrom_eq_ok_iff messages ([], []) nofun

end Gateway.Contract
