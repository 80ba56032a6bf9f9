import Mutgos.Socket.ReconnectingSession
import Mutgos.Socket.StatusReplay

/-!
# What the events of a session say of its channels

A connection that has heard every event knows the open channels of the session that are no
puppets', with the marks of the last events about them, and the open session agent that was opened
last.

## Main results

* `Books.mark`, `Books.close`, `Books.add`, `Books.remove` — each change of the channels, with the
  events that tell of it, keeps this.
-/

namespace Mutgos.Socket

open CommInterface Text NamedStatusChange PendingEvents List
open PendingEvents (lastAbout since Settled)

namespace NamedChannel

/-- The direction and ID. -/
def key (c : NamedChannel) : ChannelKey := (c.out, c.id)

/-- Whether it is a puppet's. -/
def isPuppet (c : NamedChannel) : Bool := puppetNameStart.isPrefixOf c.channelName

/-- Whether it is the one for the main input. -/
def isSessionAgent (c : NamedChannel) : Bool := c.channelName = sessionAgentChannelName

/-- The event that has told of it first. -/
def opened (c : NamedChannel) : NamedStatusChange := c.makeChannelStatusChange .statusOpen

variable {c : NamedChannel} {status : ChannelStatus}

@[simp] theorem key_makeChannelStatusChange : (c.makeChannelStatusChange status).key = c.key := rfl

@[simp] theorem isPuppet_makeChannelStatusChange :
    (c.makeChannelStatusChange status).isPuppet = c.isPuppet := rfl

@[simp] theorem status_makeChannelStatusChange :
    (c.makeChannelStatusChange status).status = status := rfl

@[simp] theorem channelId_makeChannelStatusChange :
    (c.makeChannelStatusChange status).channelId = c.id := rfl

@[simp] theorem out_makeChannelStatusChange : (c.makeChannelStatusChange status).out = c.out := rfl

@[simp] theorem channelName_makeChannelStatusChange :
    (c.makeChannelStatusChange status).channelName = c.channelName := rfl

theorem isPuppet_of_isSessionAgent (h : c.isSessionAgent = true) : c.isPuppet = false := by
  have hname : c.opened.channelName = sessionAgentChannelName := of_decide_eq_true h
  exact isPuppet_of_agent hname

end NamedChannel

/-- A connection that has heard nothing. -/
def View.new : View := ⟨fun _ => none, 0, fun _ => none⟩

/-- What a connection knows that has heard every event. -/
def known (log : List NamedStatusChange) : View := View.new.replay log

theorem known_concat (log : List NamedStatusChange) (e : NamedStatusChange) :
    known (log ++ [e]) = (known log).step e :=
  View.replay_append _ _ _

/-- A channel with some ID is opened. -/
def NamedStatusChange.opensId (id : ChannelId) (e : NamedStatusChange) : Bool :=
  e.status = .statusOpen && e.channelId = id

/-- A channel is opened, or it is blocked or unblocked. -/
def NamedStatusChange.opensOrMarks (key : ChannelKey) (e : NamedStatusChange) : Bool :=
  e.opens key || e.marks key

/-- An event is about the life of a channel that there is. -/
structure Own (c : NamedChannel) (e : NamedStatusChange) : Prop where
  out : e.out = c.out
  name : e.channelName = c.channelName
  closed : e.status = .statusClose → c.closed = true

/-- There is an open session agent with a direction and ID. -/
def AgentOpen (channels : List NamedChannel) (key : ChannelKey) : Prop :=
  ∃ c ∈ channels, c.closed = false ∧ c.isSessionAgent = true ∧ c.key = key

/-- The events are related to the channels there are, but for the marks. -/
structure Accounts (channels : List NamedChannel) (log : List NamedStatusChange) : Prop where
  distinct : KeyedVector.Distinct (fun c : NamedChannel => c.id) channels
  valid : ∀ c ∈ channels, c.valid = true
  /-- The channels on the stacks. -/
  marked : ∀ key, ((known log).mark key).isSome = true ↔
    ∃ c ∈ channels, c.closed = false ∧ c.isPuppet = false ∧ c.key = key
  puppet : ∀ id name, (known log).puppet id = some name →
    ∃ c ∈ channels, c.closed = false ∧ c.isPuppet = true ∧ c.out = true ∧ c.id = id
  /-- The last channel with an ID that has been opened is the one there is. -/
  opened : ∀ c ∈ channels, lastAbout (opensId c.id) log = some c.opened
  /-- What has been told of this ID since is about this channel. -/
  own : ∀ c ∈ channels, ∀ e ∈ since (opensId c.id) log, e.channelId = c.id →
    Own c e
  /-- The session agent that was opened last was not known of before. -/
  fresh : ∀ agent, lastAbout opensAgent log = some agent →
    ∃ front, log = front ++ agent :: since opensAgent log ∧
      (known front).mark agent.key = none
  /-- It is the main input while it is open. -/
  main : ∀ agent, lastAbout opensAgent log = some agent →
    AgentOpen channels agent.key ∧ (known log).main = agent.channelId ∨
      (∃ e ∈ since opensAgent log, e.closes agent.key = true) ∧
        (known log).main = 0
  noAgent : lastAbout opensAgent log = none → (known log).main = 0

/-- The marks of a channel are those of the last event about it. -/
structure MarkedBy (log : List NamedStatusChange) (key : ChannelKey) : Prop where
  blocked : ∀ b, (known log).mark key = some b →
    (lastAbout (marks key) log).map isBlock = some b
  /-- Once the channel has been opened, it is told whether it is blocked. -/
  settles : ∀ e, lastAbout (opensOrMarks key) log = some e → e.marks key = true

/-- **How the events are related to the channels there are.** -/
structure Books (channels : List NamedChannel) (log : List NamedStatusChange) : Prop
    extends Accounts channels log where
  markedBy : ∀ key, MarkedBy log key

namespace NamedStatusChange

variable {e : NamedStatusChange}

/-- An event that blocks or unblocks a channel is about nothing else. -/
theorem quiet_of_mark (h : e.status = .statusBlock ∨ e.status = .statusUnblock) :
    (∀ key, e.opens key = false) ∧ (∀ key, e.closes key = false) ∧ e.opensAgent = false ∧
      (∀ id, e.opensId id = false) ∧ ∀ id, e.aboutPuppet id = false := by
  refine ⟨fun key => ?_, fun key => ?_, ?_, fun id => ?_, fun id => ?_⟩
  · rcases h with h | h <;> simp [opens, h]
  · rcases h with h | h <;> simp [closes, h]
  · rcases h with h | h <;> simp [opensAgent, h]
  · rcases h with h | h <;> simp [opensId, h]
  · rcases h with h | h <;> simp [aboutPuppet, h]

end NamedStatusChange

namespace Accounts

variable {channels channels' : List NamedChannel} {log : List NamedStatusChange}
  {c c' : NamedChannel}

section

variable (h : Accounts channels log)
include h

theorem eq_of_id (hc : c ∈ channels) (hc' : c' ∈ channels) (hid : c.id = c'.id) : c = c' :=
  inj_on_of_nodup_map h.distinct hc hc' hid

/-- Channels that are closed are removed. -/
theorem remove (hsubset : channels' ⊆ channels)
    (hdistinct : KeyedVector.Distinct (fun c : NamedChannel => c.id) channels')
    (hclosed : ∀ c ∈ channels, c ∉ channels' → c.closed = true) : Accounts channels' log := by
  have hstays : ∀ c ∈ channels, c.closed = false → c ∈ channels' := by
    intro c hc hopen
    by_contra hgone
    exact absurd (hopen.symm.trans (hclosed c hc hgone)) nofun
  refine ⟨hdistinct, fun c hc => h.valid c (hsubset hc), ?_, ?_,
    fun c hc => h.opened c (hsubset hc), fun c hc => h.own c (hsubset hc), h.fresh, ?_, h.noAgent⟩
  · intro key
    rw [h.marked key]
    constructor
    · rintro ⟨c, hc, hopen, hrest⟩
      exact ⟨c, hstays c hc hopen, hopen, hrest⟩
    · rintro ⟨c, hc, hrest⟩
      exact ⟨c, hsubset hc, hrest⟩
  · intro id name hpuppet
    obtain ⟨c, hc, hopen, hrest⟩ := h.puppet id name hpuppet
    exact ⟨c, hstays c hc hopen, hopen, hrest⟩
  · intro agent hlast
    refine (h.main agent hlast).imp_left ?_
    rintro ⟨⟨c, hc, hopen, hrest⟩, hmain⟩
    exact ⟨⟨c, hstays c hc hopen, hopen, hrest⟩, hmain⟩

/-- Whether channels are blocked is for the session to know. -/
theorem congr (hids : channels'.map (fun c => c.id) = channels.map fun c => c.id)
    (hto : ∀ c ∈ channels, ∃ b, { c with blocked := b } ∈ channels')
    (hfrom : ∀ c' ∈ channels', ∃ c ∈ channels, ∃ b, c' = { c with blocked := b }) :
    Accounts channels' log := by
  refine ⟨?_, ?_, ?_, ?_, ?_, ?_, h.fresh, ?_, h.noAgent⟩
  · rw [KeyedVector.Distinct, hids]
    exact h.distinct
  · intro c' hc'
    obtain ⟨c, hc, b, rfl⟩ := hfrom c' hc'
    exact h.valid c hc
  · intro key
    rw [h.marked key]
    constructor
    · rintro ⟨c, hc, hrest⟩
      obtain ⟨b, hb⟩ := hto c hc
      exact ⟨_, hb, hrest⟩
    · rintro ⟨c', hc', hrest⟩
      obtain ⟨c, hc, b, rfl⟩ := hfrom c' hc'
      exact ⟨c, hc, hrest⟩
  · intro id name hpuppet
    obtain ⟨c, hc, hrest⟩ := h.puppet id name hpuppet
    obtain ⟨b, hb⟩ := hto c hc
    exact ⟨_, hb, hrest⟩
  · intro c' hc'
    obtain ⟨c, hc, b, rfl⟩ := hfrom c' hc'
    exact h.opened c hc
  · intro c' hc' e he hid
    obtain ⟨c, hc, b, rfl⟩ := hfrom c' hc'
    obtain ⟨hout, hname, hclosed⟩ := h.own c hc e he hid
    exact ⟨hout, hname, hclosed⟩
  · intro agent hlast
    refine (h.main agent hlast).imp_left ?_
    rintro ⟨⟨c, hc, hrest⟩, hmain⟩
    obtain ⟨b, hb⟩ := hto c hc
    exact ⟨⟨_, hb, hrest⟩, hmain⟩

/-- What has been told since a session agent was opened last goes on. -/
theorem fresh_concat {e : NamedStatusChange} (he : e.opensAgent = false) :
    ∀ agent, lastAbout opensAgent (log ++ [e]) = some agent →
      ∃ front, log ++ [e] = front ++ agent :: since opensAgent (log ++ [e]) ∧
        (known front).mark agent.key = none := by
  intro agent hlast
  rw [lastAbout_concat, he] at hlast
  obtain ⟨front, hfront, hnone⟩ := h.fresh agent hlast
  refine ⟨front, ?_, hnone⟩
  rw [since_concat, he]
  nth_rewrite 1 [hfront]
  simp

/-- **A channel is told to be blocked or unblocked.** -/
theorem mark (hc : c ∈ channels) (hothers : ∀ key, key ≠ c.key → MarkedBy log key)
    {status : ChannelStatus} (hstatus : status = .statusBlock ∨ status = .statusUnblock) :
    Books channels (log ++ [c.makeChannelStatusChange status]) := by
  generalize he : c.makeChannelStatusChange status = e
  have hestatus : e.status = .statusBlock ∨ e.status = .statusUnblock := by rwa [← he]
  have hekey : e.key = c.key := by rw [← he]; rfl
  obtain ⟨hopens, hcloses, hagent, hopensId, hpuppet⟩ := quiet_of_mark hestatus
  have hmarks : ∀ key, e.marks key = true ↔ e.key = key := by
    intro key
    rw [marks_iff]
    exact and_iff_right hestatus
  have hmain : (known (log ++ [e])).main = (known log).main := by
    rw [known_concat, View.main_step, hagent, hcloses]
    rfl
  have hsome : ∀ key, ((known (log ++ [e])).mark key).isSome = ((known log).mark key).isSome := by
    intro key
    rw [known_concat, View.mark_step, hopens, hcloses]
    cases e.marks key <;> simp
  refine ⟨⟨h.distinct, h.valid, ?_, ?_, ?_, ?_, h.fresh_concat hagent, ?_, ?_⟩, ?_⟩
  · intro key
    rw [hsome]
    exact h.marked key
  · intro id name hname
    rw [known_concat, View.puppet_step, hpuppet] at hname
    exact h.puppet id name hname
  · intro c' hc'
    rw [lastAbout_concat, hopensId]
    exact h.opened c' hc'
  · intro c' hc' e' he' hid
    rw [since_concat, hopensId] at he'
    rcases mem_append.mp he' with he' | he'
    · exact h.own c' hc' e' he' hid
    · obtain rfl := mem_singleton.mp he'
      have heq : c = c' := h.eq_of_id hc hc' (by rw [← hid, ← he]; rfl)
      subst heq
      refine ⟨by rw [← he]; rfl, by rw [← he]; rfl, fun hclose => ?_⟩
      rcases hestatus with hs | hs <;> exact absurd (hs.symm.trans hclose) nofun
  · intro agent hlast
    rw [lastAbout_concat, hagent] at hlast
    rw [hmain, since_concat, hagent]
    refine (h.main agent hlast).imp_right ?_
    rintro ⟨⟨e', he', hclosed⟩, hzero⟩
    exact ⟨⟨e', mem_append_left _ he', hclosed⟩, hzero⟩
  · intro hlast
    rw [lastAbout_concat, hagent] at hlast
    rw [hmain]
    exact h.noAgent hlast
  · intro key
    by_cases hkey : key = c.key
    · subst hkey
      have hmarked : e.marks c.key = true := (hmarks _).mpr hekey
      refine ⟨fun b hb => ?_, fun e' he' => ?_⟩
      · rw [known_concat, View.mark_step, hopens, hcloses, hmarked] at hb
        obtain ⟨-, -, hblock⟩ := Option.map_eq_some_iff.mp (show Option.map _ _ = _ from hb)
        rw [lastAbout_concat, hmarked, if_pos rfl, Option.map_some, hblock]
      · rw [lastAbout_concat, opensOrMarks, hmarked,
          Bool.or_true] at he'
        obtain rfl := Option.some.inj he'
        exact hmarked
    · have hmarked : e.marks key = false := by
        rw [Bool.eq_false_iff, ne_eq, hmarks, hekey]
        exact fun heq => hkey heq.symm
      obtain ⟨hblocked, hsettles⟩ := hothers key hkey
      refine ⟨fun b hb => ?_, fun e' he' => hsettles e' ?_⟩
      · rw [known_concat, View.mark_step, hopens, hcloses, hmarked] at hb
        rw [lastAbout_concat, hmarked]
        exact hblocked b hb
      · rw [lastAbout_concat, opensOrMarks, hopens,
          hmarked] at he'
        exact he'

/-- The channel with an ID is closed, and no other one. -/
theorem mem_close (hc : c ∈ channels) :
    c' ∈ (channels.map fun d => if d.id = c.id then { d with closed := true } else d) ↔
      c' = { c with closed := true } ∨ c' ∈ channels ∧ c'.id ≠ c.id := by
  rw [mem_map]
  constructor
  · rintro ⟨d, hd, rfl⟩
    split
    · next hid =>
      left
      rw [h.eq_of_id hd hc hid]
    · next hid => exact .inr ⟨hd, hid⟩
  · rintro (rfl | ⟨hc', hid⟩)
    · exact ⟨c, hc, if_pos rfl⟩
    · exact ⟨c', hc', if_neg hid⟩

/-- **A channel is told to be closed.** -/
theorem close (hc : c ∈ channels) (hmarkedBy : ∀ key, MarkedBy log key) :
    Books (channels.map fun d => if d.id = c.id then { d with closed := true } else d)
      (log ++ [c.makeChannelStatusChange .statusClose]) := by
  have hmem : ∀ d : NamedChannel, d ∈ _ ↔ _ := fun d => h.mem_close hc
  generalize hchannels : (channels.map fun d =>
    if d.id = c.id then { d with closed := true } else d) = channels' at hmem ⊢
  generalize he : c.makeChannelStatusChange .statusClose = e
  have hstatus : e.status = .statusClose := by rw [← he]; rfl
  have hekey : e.key = c.key := by rw [← he]; rfl
  have heid : e.channelId = c.id := by rw [← he]; rfl
  have hepuppet : e.isPuppet = c.isPuppet := by rw [← he]; rfl
  have hopens : ∀ key, e.opens key = false := fun key => by simp [opens, hstatus]
  have hmarks : ∀ key, e.marks key = false := fun key => by simp [marks, hstatus]
  have hagent : e.opensAgent = false := by simp [opensAgent, hstatus]
  have hopensId : ∀ id, e.opensId id = false :=
    fun id => by simp [opensId, hstatus]
  have hcloses : ∀ key, e.closes key = true ↔ c.isPuppet = false ∧ c.key = key := by
    intro key
    rw [closes_iff, hepuppet, hekey]
    exact and_iff_right hstatus
  have hmark : ∀ key, (known (log ++ [e])).mark key =
      if e.closes key then none else (known log).mark key := by
    intro key
    rw [known_concat, View.mark_step, hopens, hmarks]
    rfl
  -- an open channel is another one
  have hother : ∀ d ∈ channels', d.closed = false → d ∈ channels ∧ d.id ≠ c.id := by
    intro d hd hopen
    rcases (hmem d).mp hd with rfl | hd
    · cases hopen
    · exact hd
  refine ⟨⟨?_, ?_, ?_, ?_, ?_, ?_, h.fresh_concat hagent, ?_, ?_⟩, ?_⟩
  · rw [KeyedVector.Distinct, ← hchannels, map_map]
    have hids : ((fun d : NamedChannel => d.id) ∘
        fun d => if d.id = c.id then { d with closed := true } else d) =
          fun d : NamedChannel => d.id := by
      funext d
      dsimp only [Function.comp]
      split <;> rfl
    rw [hids]
    exact h.distinct
  · intro d hd
    rcases (hmem d).mp hd with rfl | ⟨hd, -⟩
    · exact h.valid c hc
    · exact h.valid d hd
  · intro key
    rw [hmark]
    by_cases hkey : e.closes key = true
    · obtain ⟨-, rfl⟩ := (hcloses key).mp hkey
      rw [if_pos hkey]
      refine iff_of_false (by simp) ?_
      rintro ⟨d, hd, hopen, -, hdkey⟩
      exact (hother d hd hopen).2 (congrArg Prod.snd hdkey)
    · rw [if_neg hkey, h.marked key]
      constructor
      · rintro ⟨d, hd, hopen, hpuppet, rfl⟩
        refine ⟨d, (hmem d).mpr (.inr ⟨hd, fun hid => hkey ?_⟩), hopen, hpuppet, rfl⟩
        obtain rfl := h.eq_of_id hd hc hid
        exact (hcloses d.key).mpr ⟨hpuppet, rfl⟩
      · rintro ⟨d, hd, hopen, hrest⟩
        exact ⟨d, (hother d hd hopen).1, hopen, hrest⟩
  · intro id name hname
    rw [known_concat, View.puppet_step] at hname
    split at hname
    · rw [if_neg (by simp [hstatus])] at hname
      cases hname
    · next habout =>
      obtain ⟨d, hd, hopen, hpuppet, hout, rfl⟩ := h.puppet id name hname
      refine ⟨d, (hmem d).mpr (.inr ⟨hd, fun hid => habout ?_⟩), hopen, hpuppet, hout, rfl⟩
      obtain rfl := h.eq_of_id hd hc hid
      rw [aboutPuppet_iff, hepuppet, heid]
      exact ⟨.inr hstatus, hpuppet, (congrArg Prod.fst hekey).trans hout, rfl⟩
  · intro d hd
    rw [lastAbout_concat, hopensId]
    rcases (hmem d).mp hd with rfl | ⟨hd, -⟩
    · exact h.opened c hc
    · exact h.opened d hd
  · intro d hd e' he' hid
    rw [since_concat, hopensId] at he'
    rcases (hmem d).mp hd with rfl | ⟨hd, hne⟩
    · rcases mem_append.mp he' with he' | he'
      · obtain ⟨hout, hname, -⟩ := h.own c hc e' he' hid
        exact ⟨hout, hname, fun _ => rfl⟩
      · obtain rfl := mem_singleton.mp he'
        exact ⟨by rw [← he]; rfl, by rw [← he]; rfl, fun _ => rfl⟩
    · rcases mem_append.mp he' with he' | he'
      · exact h.own d hd e' he' hid
      · obtain rfl := mem_singleton.mp he'
        exact absurd (hid.symm.trans heid) hne
  · intro agent hlast
    rw [lastAbout_concat, hagent] at hlast
    rw [known_concat, View.main_step, hagent, since_concat, hagent]
    rcases h.main agent hlast with ⟨⟨d, hd, hopen, hdagent, hdkey⟩, hmain⟩ | ⟨hclosed, hzero⟩
    · have hid : d.id = agent.channelId := congrArg Prod.snd hdkey
      by_cases heq : d.id = c.id
      · -- it is the main input that is closed
        right
        obtain rfl := h.eq_of_id hd hc heq
        have hdpuppet := NamedChannel.isPuppet_of_isSessionAgent hdagent
        have hclose : e.closes d.key = true := (hcloses d.key).mpr ⟨hdpuppet, rfl⟩
        have hsome : ((known log).mark d.key).isSome = true :=
          (h.marked d.key).mpr ⟨d, hd, hopen, hdpuppet, rfl⟩
        refine ⟨⟨e, mem_append_right _ mem_cons_self, hdkey ▸ hclose⟩, ?_⟩
        rw [hekey, hclose, hsome, hmain, heid, hid]
        simp
      · left
        refine ⟨⟨d, (hmem d).mpr (.inr ⟨hd, heq⟩), hopen, hdagent, hdkey⟩, ?_⟩
        have hne : e.channelId ≠ (known log).main := by
          rw [heid, hmain, ← hid]
          exact fun h => heq h.symm
        rw [decide_eq_false hne]
        simpa using hmain
    · right
      obtain ⟨e', he', hkey⟩ := hclosed
      refine ⟨⟨e', mem_append_left _ he', hkey⟩, ?_⟩
      rw [hzero]
      simp
  · intro hlast
    rw [lastAbout_concat, hagent] at hlast
    rw [known_concat, View.main_step, hagent, h.noAgent hlast]
    simp
  · intro key
    obtain ⟨hblocked, hsettles⟩ := hmarkedBy key
    refine ⟨fun b hb => ?_, fun e' he' => hsettles e' ?_⟩
    · rw [hmark] at hb
      rw [lastAbout_concat, hmarks]
      split at hb
      · cases hb
      · exact hblocked b hb
    · rw [lastAbout_concat, opensOrMarks, hopens, hmarks] at he'
      exact he'

/-- **A channel with a new ID is told to be opened.** -/
theorem add (hvalid : c.valid = true) (hopen : c.closed = false)
    (hnew : ∀ d ∈ channels, d.id ≠ c.id) : Accounts (channels ++ [c]) (log ++ [c.opened]) := by
  have hnone : (known log).mark c.key = none := by
    by_contra hsome
    obtain ⟨d, hd, -, -, hkey⟩ := (h.marked c.key).mp (Option.isSome_iff_ne_none.mpr hsome)
    exact hnew d hd (congrArg Prod.snd hkey)
  have hopens : ∀ key, c.opened.opens key = true ↔ c.isPuppet = false ∧ c.key = key := by
    intro key
    rw [opens_iff]
    exact and_iff_right rfl
  have hcloses : ∀ key, c.opened.closes key = false := fun key => by
    simp [closes, NamedChannel.opened]
  have hmarks : ∀ key, c.opened.marks key = false := fun key => by
    simp [marks, NamedChannel.opened]
  have hagent : c.opened.opensAgent = c.isSessionAgent := by
    rw [opensAgent, NamedChannel.isSessionAgent]
    exact Bool.true_and _
  have hopensId : ∀ id, c.opened.opensId id = true ↔ c.id = id := by
    intro id
    rw [opensId, Bool.and_eq_true, decide_eq_true_eq, decide_eq_true_eq]
    exact and_iff_right rfl
  have hother : ∀ d ∈ channels, c.opened.opensId d.id = false := by
    intro d hd
    rw [Bool.eq_false_iff, ne_eq, hopensId]
    exact fun heq => hnew d hd heq.symm
  have hmark : ∀ key, (known (log ++ [c.opened])).mark key =
      if c.opened.opens key then some false else (known log).mark key := by
    intro key
    rw [known_concat, View.mark_step, hcloses, hmarks]
    split
    · next hkey =>
      obtain ⟨-, rfl⟩ := (hopens key).mp hkey
      rw [hnone]
      rfl
    · rfl
  have hmain : (known (log ++ [c.opened])).main =
      if c.isSessionAgent then c.id else (known log).main := by
    rw [known_concat, View.main_step, hcloses, hagent]
    have hkey : (known log).mark c.opened.key = none := hnone
    rw [hkey]
    cases c.isSessionAgent <;> rfl
  refine ⟨?_, ?_, ?_, ?_, ?_, ?_, ?_, ?_, ?_⟩
  · refine KeyedVector.distinct_append h.distinct (nodup_singleton _) ?_
    intro d hd d' hd'
    obtain rfl := mem_singleton.mp hd'
    exact hnew d hd
  · intro d hd
    rcases mem_append.mp hd with hd | hd
    · exact h.valid d hd
    · obtain rfl := mem_singleton.mp hd
      exact hvalid
  · intro key
    rw [hmark]
    split
    · next hkey =>
      obtain ⟨hpuppet, rfl⟩ := (hopens key).mp hkey
      refine iff_of_true rfl ⟨c, mem_append_right _ mem_cons_self, hopen, hpuppet, rfl⟩
    · next hkey =>
      rw [h.marked key]
      constructor
      · rintro ⟨d, hd, hrest⟩
        exact ⟨d, mem_append_left _ hd, hrest⟩
      · rintro ⟨d, hd, hdopen, hpuppet, rfl⟩
        rcases mem_append.mp hd with hd | hd
        · exact ⟨d, hd, hdopen, hpuppet, rfl⟩
        · obtain rfl := mem_singleton.mp hd
          exact absurd ((hopens _).mpr ⟨hpuppet, rfl⟩) hkey
  · intro id name hname
    rw [known_concat, View.puppet_step] at hname
    split at hname
    · next habout =>
      obtain ⟨-, hpuppet, hout, hid⟩ := aboutPuppet_iff.mp habout
      exact ⟨c, mem_append_right _ mem_cons_self, hopen, hpuppet, hout, hid⟩
    · obtain ⟨d, hd, hrest⟩ := h.puppet id name hname
      exact ⟨d, mem_append_left _ hd, hrest⟩
  · intro d hd
    rw [lastAbout_concat]
    rcases mem_append.mp hd with hd | hd
    · rw [hother d hd]
      exact h.opened d hd
    · obtain rfl := mem_singleton.mp hd
      rw [if_pos ((hopensId _).mpr rfl)]
  · intro d hd e he hid
    rw [since_concat] at he
    rcases mem_append.mp hd with hd | hd
    · rw [hother d hd] at he
      rcases mem_append.mp he with he | he
      · exact h.own d hd e he hid
      · obtain rfl := mem_singleton.mp he
        exact absurd hid.symm (hnew d hd)
    · obtain rfl := mem_singleton.mp hd
      rw [if_pos ((hopensId _).mpr rfl)] at he
      exact absurd he (by simp)
  · cases hcagent : c.isSessionAgent with
    | false => exact h.fresh_concat (hagent.trans hcagent)
    | true =>
      intro agent hlast
      rw [lastAbout_concat, hagent, hcagent] at hlast
      obtain rfl := Option.some.inj hlast
      refine ⟨log, ?_, hnone⟩
      rw [since_concat, hagent, hcagent]
      rfl
  · intro agent hlast
    rw [lastAbout_concat, hagent] at hlast
    rw [hmain, since_concat, hagent]
    cases hcagent : c.isSessionAgent with
    | false =>
      rw [hcagent] at hlast
      rcases h.main agent hlast with ⟨⟨d, hd, hrest⟩, hmain⟩ | ⟨⟨e, he, hclosed⟩, hzero⟩
      · exact .inl ⟨⟨d, mem_append_left _ hd, hrest⟩, hmain⟩
      · exact .inr ⟨⟨e, mem_append_left _ he, hclosed⟩, hzero⟩
    | true =>
      rw [hcagent] at hlast
      obtain rfl := Option.some.inj hlast
      exact .inl ⟨⟨c, mem_append_right _ mem_cons_self, hopen, hcagent, rfl⟩, rfl⟩
  · intro hlast
    rw [lastAbout_concat, hagent] at hlast
    rw [hmain]
    cases hcagent : c.isSessionAgent with
    | false =>
      rw [hcagent] at hlast
      exact h.noAgent hlast
    | true =>
      rw [hcagent] at hlast
      cases hlast

end

end Accounts

namespace Books

variable {channels channels' : List NamedChannel} {log : List NamedStatusChange} {c : NamedChannel}

theorem nil : Books [] [] where
  distinct := .nil
  valid := nofun
  marked key := by simp [known, View.new]
  puppet id name h := absurd h nofun
  opened := nofun
  own := nofun
  markedBy key := ⟨fun b h => absurd h nofun, fun e h => absurd h nofun⟩
  fresh agent h := absurd h nofun
  main agent h := absurd h nofun
  noAgent _ := rfl

section

variable (h : Books channels log)
include h

theorem remove (hsubset : channels' ⊆ channels)
    (hdistinct : KeyedVector.Distinct (fun c : NamedChannel => c.id) channels')
    (hclosed : ∀ c ∈ channels, c ∉ channels' → c.closed = true) : Books channels' log :=
  ⟨h.toAccounts.remove hsubset hdistinct hclosed, h.markedBy⟩

theorem congr (hids : channels'.map (fun c => c.id) = channels.map fun c => c.id)
    (hto : ∀ c ∈ channels, ∃ b, { c with blocked := b } ∈ channels')
    (hfrom : ∀ c' ∈ channels', ∃ c ∈ channels, ∃ b, c' = { c with blocked := b }) :
    Books channels' log :=
  ⟨h.toAccounts.congr hids hto hfrom, h.markedBy⟩

theorem mark (hc : c ∈ channels) {status : ChannelStatus}
    (hstatus : status = .statusBlock ∨ status = .statusUnblock) :
    Books channels (log ++ [c.makeChannelStatusChange status]) :=
  h.toAccounts.mark hc (fun key _ => h.markedBy key) hstatus

theorem close (hc : c ∈ channels) :
    Books (channels.map fun d => if d.id = c.id then { d with closed := true } else d)
      (log ++ [c.makeChannelStatusChange .statusClose]) :=
  h.toAccounts.close hc h.markedBy

/-- **A channel with a new ID is told to be opened, and whether it is blocked.** -/
theorem add (hvalid : c.valid = true) (hopen : c.closed = false)
    (hnew : ∀ d ∈ channels, d.id ≠ c.id) {status : ChannelStatus}
    (hstatus : status = .statusBlock ∨ status = .statusUnblock) :
    Books (channels ++ [c]) (log ++ [c.opened] ++ [c.makeChannelStatusChange status]) := by
  refine (h.toAccounts.add hvalid hopen hnew).mark (mem_append_right _ mem_cons_self) ?_
    hstatus
  intro key hkey
  have hother : c.key ≠ key := fun heq => hkey heq.symm
  have hopens : c.opened.opens key = false := by
    rw [Bool.eq_false_iff, ne_eq, opens_iff]
    exact fun h => hother h.2.2
  have hcloses : c.opened.closes key = false := by
    simp [closes, NamedChannel.opened]
  have hmarks : c.opened.marks key = false := by
    simp [marks, NamedChannel.opened]
  obtain ⟨hblocked, hsettles⟩ := h.markedBy key
  refine ⟨fun b hb => ?_, fun e he => hsettles e ?_⟩
  · rw [known_concat, View.mark_step, hopens, hcloses, hmarks] at hb
    rw [lastAbout_concat, hmarks]
    exact hblocked b hb
  · rw [lastAbout_concat, opensOrMarks, hopens, hmarks] at he
    exact he

end

end Books

end Mutgos.Socket
