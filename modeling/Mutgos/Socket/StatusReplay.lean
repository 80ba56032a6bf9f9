import Mutgos.Socket.ChannelTables

/-!
# Events about channels that are heard again

What a list of events does to what a connection knows, channel by channel: it matters where the
last close of a channel is, and the last event that blocks or unblocks it; and for the main input,
which events open a session agent that was not known of before.

## Main results

* `View.replay_mark_of_closes` — after a close, what was known before does not matter.
-/

namespace Mutgos.Socket

open CommInterface Text NamedStatusChange List
open PendingEvents (lastAbout since Settled)

namespace NamedStatusChange

/-- A channel is put on its stack, unless it is there. -/
def opens (key : ChannelKey) (e : NamedStatusChange) : Bool :=
  e.status = .statusOpen && !e.isPuppet && e.key = key

/-- A channel is removed from its stack. -/
def closes (key : ChannelKey) (e : NamedStatusChange) : Bool :=
  e.status = .statusClose && !e.isPuppet && e.key = key

/-- A channel on a stack is blocked or unblocked. -/
def marks (key : ChannelKey) (e : NamedStatusChange) : Bool :=
  (e.status = .statusBlock || e.status = .statusUnblock) && e.key = key

/-- The mark is that the channel is blocked. -/
def isBlock (e : NamedStatusChange) : Bool := e.status = .statusBlock

/-- A session agent is opened. -/
def opensAgent (e : NamedStatusChange) : Bool :=
  e.status = .statusOpen && e.channelName = sessionAgentChannelName

/-- The table of puppets is changed. -/
def aboutPuppet (id : ChannelId) (e : NamedStatusChange) : Bool :=
  (e.status = .statusOpen || e.status = .statusClose) && e.isPuppet && e.out &&
    e.channelId = id

variable {e : NamedStatusChange} {key : ChannelKey}

theorem opens_iff : e.opens key = true ↔
    e.status = .statusOpen ∧ e.isPuppet = false ∧ e.key = key := by
  simp [opens, and_assoc]

theorem closes_iff : e.closes key = true ↔
    e.status = .statusClose ∧ e.isPuppet = false ∧ e.key = key := by
  simp [closes, and_assoc]

theorem marks_iff : e.marks key = true ↔
    (e.status = .statusBlock ∨ e.status = .statusUnblock) ∧ e.key = key := by
  simp [marks]

theorem opensAgent_iff : e.opensAgent = true ↔
    e.status = .statusOpen ∧ e.channelName = sessionAgentChannelName := by
  simp [opensAgent]

theorem aboutPuppet_iff {id : ChannelId} : e.aboutPuppet id = true ↔
    (e.status = .statusOpen ∨ e.status = .statusClose) ∧ e.isPuppet = true ∧ e.out = true ∧
      e.channelId = id := by
  simp [aboutPuppet, and_assoc]

/-- A session agent is no puppet. -/
theorem isPuppet_of_agent (h : e.channelName = sessionAgentChannelName) : e.isPuppet = false := by
  rw [isPuppet, h]
  decide

theorem opens_of_opensAgent (h : e.opensAgent = true) : e.opens e.key = true := by
  obtain ⟨hstatus, hname⟩ := opensAgent_iff.mp h
  exact opens_iff.mpr ⟨hstatus, isPuppet_of_agent hname, rfl⟩

end NamedStatusChange

namespace View

variable {v v' : View} {e : NamedStatusChange} {key : ChannelKey} {id : ChannelId}
  {events : List NamedStatusChange}

/-! ### One event -/

theorem mark_step (v : View) (e : NamedStatusChange) (key : ChannelKey) : (v.step e).mark key =
    if e.opens key then some ((v.mark key).getD false)
    else if e.closes key then none
    else if e.marks key then (v.mark key).map fun _ => e.isBlock
    else v.mark key := by
  unfold step opens closes marks
    isBlock
  by_cases hkey : e.key = key
  · subst hkey
    cases e.status with
    | statusOpen =>
      cases e.isPuppet <;> cases hmark : v.mark e.key <;> cases e.out <;> simp [hmark]
    | statusClose =>
      cases e.isPuppet <;> cases hmark : v.mark e.key <;> cases e.out <;> simp [hmark]
    | statusBlock => simp
    | statusUnblock => simp
  · have hne : key ≠ e.key := fun heq => hkey heq.symm
    cases e.status with
    | statusOpen =>
      cases e.isPuppet <;> cases v.mark e.key <;> cases e.out <;> simp [hkey, hne]
    | statusClose =>
      cases e.isPuppet <;> cases v.mark e.key <;> cases e.out <;> simp [hkey, hne]
    | statusBlock => simp [hkey, hne]
    | statusUnblock => simp [hkey, hne]

theorem puppet_step (v : View) (e : NamedStatusChange) (id : ChannelId) : (v.step e).puppet id =
    if e.aboutPuppet id then if e.status = .statusOpen then some e.channelSubtype else none
    else v.puppet id := by
  unfold step aboutPuppet
  cases e.status with
  | statusOpen =>
    cases e.isPuppet <;> cases v.mark e.key <;> cases e.out <;>
      simp [Function.update_apply, eq_comm]
  | statusClose =>
    cases e.isPuppet <;> cases v.mark e.key <;> cases e.out <;>
      simp [Function.update_apply, eq_comm]
  | statusBlock => simp
  | statusUnblock => simp

theorem main_step (v : View) (e : NamedStatusChange) : (v.step e).main =
    if e.opensAgent && (v.mark e.key).isNone then e.channelId
    else if e.closes e.key && (v.mark e.key).isSome && e.channelId = v.main then 0
    else v.main := by
  unfold step opensAgent closes
  cases e.status with
  | statusOpen =>
    by_cases hname : e.channelName = sessionAgentChannelName
    · have hpuppet := isPuppet_of_agent hname
      cases v.mark e.key <;> simp [hpuppet, hname]
    · cases e.isPuppet <;> cases v.mark e.key <;> cases e.out <;> simp [hname]
  | statusClose =>
    cases e.isPuppet <;> cases v.mark e.key <;> cases e.out <;> simp
  | statusBlock => simp
  | statusUnblock => simp

/-! ### Many events -/

/-- What a list of events does. -/
def replay (v : View) (events : List NamedStatusChange) : View := events.foldl step v

@[simp] theorem replay_nil (v : View) : v.replay [] = v := rfl

@[simp] theorem replay_cons (v : View) (e : NamedStatusChange) (events : List NamedStatusChange) :
    v.replay (e :: events) = (v.step e).replay events := rfl

theorem replay_append (v : View) (events events' : List NamedStatusChange) :
    v.replay (events ++ events') = (v.replay events).replay events' :=
  foldl_append

/-- The marks of one channel do not depend on what is known of others. -/
theorem replay_mark_congr (h : v.mark key = v'.mark key) :
    (v.replay events).mark key = (v'.replay events).mark key := by
  induction events generalizing v v' with
  | nil => exact h
  | cons e events ih =>
    refine ih ?_
    rw [mark_step, mark_step, h]

/-- **After a close, what was known before does not matter.** -/
theorem replay_mark_of_closes (h : ∃ e ∈ events, e.closes key = true) (v v' : View) :
    (v.replay events).mark key = (v'.replay events).mark key := by
  obtain ⟨e, he, hcloses⟩ := h
  obtain ⟨front, back, rfl⟩ := append_of_mem he
  rw [replay_append, replay_append, replay_cons, replay_cons]
  have hopens : ¬ e.opens key = true := by
    intro hopens
    rw [opens_iff] at hopens
    rw [closes_iff, hopens.1] at hcloses
    exact absurd hcloses.1 nofun
  refine replay_mark_congr ?_
  rw [mark_step, mark_step, if_neg hopens, if_neg hopens, if_pos hcloses, if_pos hcloses]

/-- A channel that is on a stack was there before, or has been opened. -/
theorem isSome_or_opens (h : ((v.replay events).mark key).isSome = true) :
    (v.mark key).isSome = true ∨ ∃ e ∈ events, e.opens key = true := by
  induction events generalizing v with
  | nil => exact .inl h
  | cons e events ih =>
    rcases ih h with hstep | ⟨e', he', hopens⟩
    · rw [mark_step] at hstep
      split at hstep
      · next hopens => exact .inr ⟨e, mem_cons_self, hopens⟩
      · split at hstep
        · exact absurd hstep nofun
        · split at hstep
          · exact .inl (by simpa using hstep)
          · exact .inl hstep
    · exact .inr ⟨e', mem_cons_of_mem e he', hopens⟩

/-- **Without a close, a channel stays on its stack.** -/
theorem isSome_replay_mark (hcloses : ∀ e ∈ events, e.closes key = false) :
    ((v.replay events).mark key).isSome = true ↔
      (v.mark key).isSome = true ∨ ∃ e ∈ events, e.opens key = true := by
  refine ⟨isSome_or_opens, ?_⟩
  induction events generalizing v with
  | nil => exact fun h => h.resolve_right nofun
  | cons e events ih =>
    obtain ⟨he, hrest⟩ := forall_mem_cons.mp hcloses
    intro h
    refine ih hrest ?_
    rw [mark_step, he]
    rcases h with hmark | ⟨e', he', hopens⟩
    · left
      split
      · rfl
      · rw [if_neg nofun]
        split
        · simpa using hmark
        · exact hmark
    · rcases mem_cons.mp he' with rfl | he'
      · left
        rw [if_pos hopens]
        rfl
      · exact .inr ⟨e', he', hopens⟩

/-- Events that are not about a channel leave it as it is. -/
theorem replay_mark_of_quiet (h : ∀ e ∈ events, e.opens key = false ∧ e.closes key = false ∧
    e.marks key = false) : (v.replay events).mark key = v.mark key := by
  induction events generalizing v with
  | nil => rfl
  | cons e events ih =>
    obtain ⟨⟨hopens, hcloses, hmarks⟩, hrest⟩ := forall_mem_cons.mp h
    rw [replay_cons, ih hrest, mark_step, hopens, hcloses, hmarks]
    rfl

/-- **The last mark counts**, if the channel is not opened afterwards. -/
theorem replay_mark_of_marks {front back : List NamedStatusChange} (he : e.marks key = true)
    (hback : ∀ x ∈ back, x.opens key = false ∧ x.marks key = false) {blocked : Bool}
    (h : (v.replay (front ++ e :: back)).mark key = some blocked) : e.isBlock = blocked := by
  rw [replay_append, replay_cons] at h
  have hopens : ¬ e.opens key = true := by
    intro hopens
    rw [opens_iff] at hopens
    rw [marks_iff, hopens.1] at he
    exact absurd he.1 (by simp)
  have hcloses : ¬ e.closes key = true := by
    intro hcloses
    rw [closes_iff] at hcloses
    rw [marks_iff, hcloses.1] at he
    exact absurd he.1 (by simp)
  have hstart : ∀ b, (v.replay front |>.step e).mark key = some b → e.isBlock = b := by
    intro b hb
    rw [mark_step, if_neg hopens, if_neg hcloses, if_pos he, Option.map_eq_some_iff] at hb
    obtain ⟨-, -, hb⟩ := hb
    exact hb
  generalize (v.replay front).step e = u at h hstart
  induction back generalizing u with
  | nil => exact hstart blocked h
  | cons x back ih =>
    obtain ⟨⟨hx, hxmarks⟩, hrest⟩ := forall_mem_cons.mp hback
    refine ih hrest (u.step x) h ?_
    intro b hb
    rw [mark_step, hx, hxmarks] at hb
    simp only [Bool.false_eq_true, if_false] at hb
    split at hb
    · cases hb
    · exact hstart b hb

/-! ### Puppets -/

theorem replay_puppet_congr (h : v.puppet id = v'.puppet id) :
    (v.replay events).puppet id = (v'.replay events).puppet id := by
  induction events generalizing v v' with
  | nil => exact h
  | cons e events ih =>
    refine ih ?_
    rw [puppet_step, puppet_step, h]

/-- **Once the table has been changed for a channel, what was there before does not matter.** -/
theorem replay_puppet_of_about (h : ∃ e ∈ events, e.aboutPuppet id = true) (v v' : View) :
    (v.replay events).puppet id = (v'.replay events).puppet id := by
  obtain ⟨e, he, habout⟩ := h
  obtain ⟨front, back, rfl⟩ := append_of_mem he
  rw [replay_append, replay_append, replay_cons, replay_cons]
  refine replay_puppet_congr ?_
  rw [puppet_step, puppet_step, if_pos habout, if_pos habout]

theorem replay_puppet_of_settled (h : Settled (aboutPuppet id) events) :
    (v.replay events).puppet id = v.puppet id := by
  induction events generalizing v with
  | nil => rfl
  | cons e events ih =>
    obtain ⟨he, hrest⟩ := forall_mem_cons.mp h
    rw [replay_cons, ih hrest, puppet_step, he]
    rfl

/-! ### The main input -/

/-- No session agent is opened that is not known of. -/
def NoNewAgent (v : View) (events : List NamedStatusChange) : Prop :=
  ∀ front e back, events = front ++ e :: back → e.opensAgent = true →
    ((v.replay front).mark e.key).isSome = true

theorem noNewAgent_cons : v.NoNewAgent (e :: events) ↔
    (e.opensAgent = true → (v.mark e.key).isSome = true) ∧ (v.step e).NoNewAgent events := by
  constructor
  · intro h
    refine ⟨h [] e events rfl, ?_⟩
    rintro front e' back rfl hopens
    exact h (e :: front) e' back rfl hopens
  · rintro ⟨hfirst, hrest⟩ front e' back heq hopens
    cases front with
    | nil =>
      obtain ⟨rfl, rfl⟩ := cons_eq_cons.mp heq
      exact hfirst hopens
    | cons x front =>
      obtain ⟨rfl, rfl⟩ := cons_eq_cons.mp heq
      exact hrest front e' back rfl hopens

theorem noNewAgent_of_settled (h : Settled opensAgent events) :
    v.NoNewAgent events := by
  rintro front e back rfl hopens
  exact absurd (hopens.symm.trans (h e (mem_append_right front mem_cons_self))) nofun

/-- Where no session agent is new, the main input is what it was or none. -/
theorem main_step_of_known (h : e.opensAgent = true → (v.mark e.key).isSome = true) :
    (v.step e).main =
      if e.closes e.key && (v.mark e.key).isSome && e.channelId = v.main then 0 else v.main := by
  have hnew : (e.opensAgent && (v.mark e.key).isNone) = false := by
    cases hopens : e.opensAgent with
    | false => rfl
    | true =>
      obtain ⟨b, hb⟩ := Option.isSome_iff_exists.mp (h hopens)
      rw [hb]
      rfl
  rw [main_step, hnew]
  rfl

/-- **The main input stays**, if no channel with its ID is closed that is on a stack. -/
theorem replay_main_kept (hnew : v.NoNewAgent events)
    (hcloses : ∀ front e back, events = front ++ e :: back → e.closes e.key = true →
      e.channelId = v.main → (v.replay front).mark e.key = none) :
    (v.replay events).main = v.main := by
  induction events generalizing v with
  | nil => rfl
  | cons e events ih =>
    obtain ⟨hfirst, hrest⟩ := noNewAgent_cons.mp hnew
    have hstep : (v.step e).main = v.main := by
      rw [main_step_of_known hfirst]
      split
      · next hclosed =>
        simp only [Bool.and_eq_true, decide_eq_true_eq] at hclosed
        have hnone := hcloses [] e events rfl hclosed.1.1 hclosed.2
        rw [replay_nil] at hnone
        rw [hnone] at hclosed
        exact absurd hclosed.1.2 nofun
      · rfl
    rw [replay_cons, ih hrest, hstep]
    rintro front e' back rfl hclosed hid
    exact hcloses (e :: front) e' back rfl hclosed (hid.trans hstep)

/-- **None stays none.** -/
theorem replay_main_zero (hnew : v.NoNewAgent events) (h : v.main = 0) :
    (v.replay events).main = 0 := by
  induction events generalizing v with
  | nil => exact h
  | cons e events ih =>
    obtain ⟨hfirst, hrest⟩ := noNewAgent_cons.mp hnew
    refine ih hrest ?_
    rw [main_step_of_known hfirst, h]
    split <;> rfl

/-- **The main input ends with its channel.** -/
theorem replay_main_closed (hnew : v.NoNewAgent events) (hmark : (v.mark key).isSome = true)
    (hmain : v.main = 0 ∨ v.main = key.2) (hcloses : ∃ e ∈ events, e.closes key = true) :
    (v.replay events).main = 0 := by
  induction events generalizing v with
  | nil => exact absurd hcloses nofun
  | cons e events ih =>
    obtain ⟨hfirst, hrest⟩ := noNewAgent_cons.mp hnew
    rw [replay_cons]
    by_cases hclosed : e.closes key = true
    · refine replay_main_zero hrest ?_
      rw [main_step_of_known hfirst]
      have hkey : e.key = key := (closes_iff.mp hclosed).2.2
      rcases hmain with hzero | hid
      · rw [hzero]
        split <;> rfl
      · have hid' : e.channelId = v.main := by
          rw [hid, ← hkey]
          rfl
        rw [hkey, hclosed, hmark, if_pos (by simpa using hid')]
    · refine ih hrest ?_ ?_ ?_
      · rw [mark_step, if_neg hclosed]
        split
        · rfl
        · split
          · simpa using hmark
          · exact hmark
      · rw [main_step_of_known hfirst]
        split
        · exact .inl rfl
        · exact hmain
      · obtain ⟨e', he', hcloses⟩ := hcloses
        rcases mem_cons.mp he' with rfl | he'
        · exact absurd hcloses hclosed
        · exact ⟨e', he', hcloses⟩

end View

end Mutgos.Socket
