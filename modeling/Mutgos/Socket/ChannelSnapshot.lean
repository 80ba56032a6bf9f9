import Mutgos.Socket.ChannelBooks

/-!
# The channels there are, and the events heard again

A connection that replaces another one learns of the channels there are, and then hears the events
that are not acknowledged.  It knows what it would know from all events, if no puppet's channel is
among the channels, no mark is known that no event has told of, and no other session agent comes
between.

## Main results

* `Restorable.replay_learned` — that they do.
-/

namespace Mutgos.Socket

open CommInterface Text NamedStatusChange PendingEvents List Option
open PendingEvents (lastAbout since upToLast Settled)

/-- What a connection knows when it has been told of the channels there are. -/
def learned (channels : List NamedChannel) : View where
  mark key := (channels.find? fun c => c.key = key).map fun c => c.blocked
  main := ((lastAbout NamedChannel.isSessionAgent channels).map fun c => c.id).getD 0
  puppet _ := none

/-- A channel has been learned of, and no event so far has closed it. -/
def Repeats (channels : List NamedChannel) (front : List NamedStatusChange) (key : ChannelKey) :
    Prop :=
  (∃ c ∈ channels, c.key = key) ∧ ∀ e ∈ front, e.closes key = false

instance (channels : List NamedChannel) (front : List NamedStatusChange) (key : ChannelKey) :
    Decidable (Repeats channels front key) :=
  inferInstanceAs (Decidable (_ ∧ _))

/-- The session agent that was opened last is opened again, and it is new to the connection. -/
def AgentIsNew (channels : List NamedChannel) (pending : List NamedStatusChange)
    (agent : NamedStatusChange) : Prop :=
  (lastAbout opensAgent pending).isSome = true ∧
    ¬ Repeats channels (upToLast opensAgent pending) agent.key

instance (channels : List NamedChannel) (pending : List NamedStatusChange)
    (agent : NamedStatusChange) : Decidable (AgentIsNew channels pending agent) :=
  inferInstanceAs (Decidable (_ ∧ _))

/-- An event opens no other session agent that is new to the connection, and no other channel
with its ID. -/
def Harmless (channels : List NamedChannel) (front : List NamedStatusChange)
    (agent e : NamedStatusChange) : Prop :=
  e.opens e.key = true → e.opensAgent = true ∨ e.channelId = agent.channelId →
    e.key ≠ agent.key → Repeats channels front e.key

instance (channels : List NamedChannel) (front : List NamedStatusChange)
    (agent e : NamedStatusChange) : Decidable (Harmless channels front agent e) :=
  inferInstanceAs (Decidable (_ → _))

/-- The session agent that was opened last is the last one that the connection learns of, and the
events bring no other one. -/
def AgentIsLearned (channels : List NamedChannel) (pending : List NamedStatusChange)
    (agent : NamedStatusChange) : Prop :=
  (∀ c ∈ lastAbout NamedChannel.isSessionAgent channels, c.key = agent.key) ∧
    ∀ i < pending.length, ∀ e ∈ pending[i]?, Harmless channels (pending.take i) agent e

instance (channels : List NamedChannel) (pending : List NamedStatusChange)
    (agent : NamedStatusChange) : Decidable (AgentIsLearned channels pending agent) :=
  inferInstanceAs (Decidable (_ ∧ _))

/-- **When the channels there are and the events that are not acknowledged say what all events
do.** -/
structure Restorable (channels : List NamedChannel) (log pending : List NamedStatusChange) :
    Prop where
  /-- A puppet's channel is put on a stack with the others, and only a close removes it. -/
  puppets : ∀ c ∈ channels, c.isPuppet = true → ∃ e ∈ pending, e.closes c.key = true
  /-- A mark is one that an event has told of. -/
  marks : ∀ c ∈ channels, c.closed = false → c.isPuppet = false →
    (∃ e ∈ pending, e.marks c.key = true) ∨
      (lastAbout (marks c.key) log).map isBlock =
        some c.blocked
  /-- One session agent counts. -/
  agent : ∀ agent ∈ lastAbout opensAgent log,
    AgentIsNew channels pending agent ∨ AgentIsLearned channels pending agent

instance (channels : List NamedChannel) (log pending : List NamedStatusChange) :
    Decidable (Restorable channels log pending) :=
  decidable_of_iff
    ((∀ c ∈ channels, c.isPuppet = true → ∃ e ∈ pending, e.closes c.key = true) ∧
      (∀ c ∈ channels, c.closed = false → c.isPuppet = false →
        (∃ e ∈ pending, e.marks c.key = true) ∨
          (lastAbout (marks c.key) log).map isBlock =
            some c.blocked) ∧
      ∀ agent ∈ lastAbout opensAgent log,
        AgentIsNew channels pending agent ∨ AgentIsLearned channels pending agent)
    ⟨fun h => ⟨h.1, h.2.1, h.2.2⟩, fun h => ⟨h.puppets, h.marks, h.agent⟩⟩

variable {channels : List NamedChannel} {log acked pending : List NamedStatusChange}
  {c : NamedChannel} {agent : NamedStatusChange} {key : ChannelKey}

/-! ### What has been learned -/

theorem learned_mark (h : Accounts channels log) (hc : c ∈ channels) :
    (learned channels).mark c.key = some c.blocked := by
  have hfind : channels.find? (fun d => decide (d.key = c.key)) = some c := by
    cases hfind : channels.find? fun d => decide (d.key = c.key) with
    | none =>
      rw [find?_eq_none] at hfind
      exact absurd (decide_eq_true rfl) (hfind c hc)
    | some d =>
      have hkey : d.key = c.key := by simpa using find?_some hfind
      rw [h.eq_of_id (mem_of_find?_eq_some hfind) hc (congrArg Prod.snd hkey)]
  exact congrArg (Option.map fun d : NamedChannel => d.blocked) hfind

theorem exists_of_learned_mark (h : ((learned channels).mark key).isSome = true) :
    ∃ c ∈ channels, c.key = key := by
  have hfind : (channels.find? fun c => c.key = key).isSome = true := by
    simpa [learned] using h
  obtain ⟨c, hc⟩ := isSome_iff_exists.mp hfind
  exact ⟨c, mem_of_find?_eq_some hc, by simpa using find?_some hc⟩

/-- A channel that has been learned of is still known. -/
theorem Repeats.isSome (h : Accounts channels log) {front : List NamedStatusChange}
    (hr : Repeats channels front key) :
    (((learned channels).replay front).mark key).isSome = true := by
  obtain ⟨⟨c, hc, rfl⟩, hcloses⟩ := hr
  rw [View.isSome_replay_mark hcloses, learned_mark h hc]
  exact .inl rfl

theorem main_learned_of_last (hlast : lastAbout NamedChannel.isSessionAgent channels = some c) :
    (learned channels).main = c.id := by
  rw [learned, hlast]
  rfl

theorem main_learned_of_none (hlast : lastAbout NamedChannel.isSessionAgent channels = none) :
    (learned channels).main = 0 := by
  rw [learned, hlast]
  rfl

theorem opensAgent_opened (h : c.isSessionAgent = true) : c.opened.opensAgent = true :=
  opensAgent_iff.mpr ⟨rfl, of_decide_eq_true h⟩

/-- What has been told of its ID since the session agent was opened last is about it. -/
theorem Accounts.own_agent (h : Accounts channels log)
    (hlast : lastAbout opensAgent log = some agent) (hc : c ∈ channels)
    (hagent : c.isSessionAgent = true) (hkey : c.key = agent.key) {e : NamedStatusChange}
    (he : e ∈ since opensAgent log) (hid : e.channelId = c.id) : Own c e := by
  obtain ⟨front, hfront⟩ := eq_append_of_lastAbout hlast
  have hsettled := settled_since opensAgent log
  have hopened := h.opened c hc
  have hopens : agent.opensId c.id = true := by
    obtain ⟨hstatus, -⟩ :=
      opensAgent_iff.mp (mem_of_lastAbout hlast).2
    have hcid : agent.channelId = c.id := (congrArg Prod.snd hkey).symm
    simp [opensId, hstatus, hcid]
  have hquiet : Settled (opensId c.id)
      (since opensAgent log) := by
    rw [settled_iff]
    by_contra hsome
    obtain ⟨e', he'⟩ := ne_none_iff_exists'.mp hsome
    have hassoc : front ++ agent :: since opensAgent log =
        (front ++ [agent]) ++ since opensAgent log := by simp
    rw [hfront, hassoc, lastAbout_append, he', some_or] at hopened
    obtain rfl := Option.some.inj hopened
    have hmem := (mem_of_lastAbout he').1
    exact absurd ((opensAgent_opened hagent).symm.trans (hsettled _ hmem)) (by rintro ⟨⟩)
  refine h.own c hc e ?_ hid
  rw [hfront, since_append_cons _ _ hopens hquiet]
  exact he

namespace Restorable

/-! ### Marks -/

section

variable (hr : Restorable channels (acked ++ pending) pending)
  (h : Books channels (acked ++ pending))
include hr h

theorem replay_mark
    (hclosed : ∀ c ∈ channels, c.closed = true → c.makeChannelStatusChange .statusClose ∈ pending)
    (key : ChannelKey) :
    ((learned channels).replay pending).mark key = (known (acked ++ pending)).mark key := by
  have happend : known (acked ++ pending) = (known acked).replay pending :=
    View.replay_append _ _ _
  by_cases hclose : ∃ e ∈ pending, e.closes key = true
  · rw [happend]
    exact View.replay_mark_of_closes hclose _ _
  · have hno : ∀ e ∈ pending, e.closes key = false := by
      intro e he
      rw [Bool.eq_false_iff]
      exact fun htrue => hclose ⟨e, he, htrue⟩
    cases hknown : (known (acked ++ pending)).mark key with
    | none =>
      rw [← not_isSome_iff_eq_none, View.isSome_replay_mark hno]
      have hnone : ¬ ((known (acked ++ pending)).mark key).isSome = true := by simp [hknown]
      have hno' := hnone
      rw [happend, View.isSome_replay_mark hno] at hno'
      rintro (hlearned | hopens)
      · obtain ⟨c, hc, rfl⟩ := exists_of_learned_mark hlearned
        cases hpuppet : c.isPuppet with
        | true => exact hclose (hr.puppets c hc hpuppet)
        | false =>
          cases hcclosed : c.closed with
          | true =>
            refine hclose ⟨_, hclosed c hc hcclosed, ?_⟩
            exact closes_iff.mpr ⟨rfl, hpuppet, rfl⟩
          | false => exact hnone ((h.marked c.key).mpr ⟨c, hc, hcclosed, hpuppet, rfl⟩)
      · exact hno' (.inr hopens)
    | some b =>
      obtain ⟨c, hc, hopen, hpuppet, rfl⟩ := (h.marked key).mp (by rw [hknown]; rfl)
      have hstart := learned_mark h.toAccounts hc
      cases hlast : lastAbout (opensOrMarks c.key) pending with
      | some e =>
        -- the last event about the channel is a mark, and it is heard again
        have hlastlog : lastAbout (opensOrMarks c.key) (acked ++ pending) =
            some e := by rw [lastAbout_append, hlast, some_or]
        have hmarks := (h.markedBy c.key).settles e hlastlog
        obtain ⟨front, back, rfl, -, hback⟩ := lastAbout_eq_some_iff.mp hlast
        have hquiet : ∀ x ∈ back, x.opens c.key = false ∧ x.marks c.key = false := by
          intro x hx
          exact Bool.or_eq_false_iff.mp (hback x hx)
        have hsome : (((learned channels).replay (front ++ e :: back)).mark c.key).isSome = true :=
          (View.isSome_replay_mark hno).mpr (.inl (by rw [hstart]; rfl))
        obtain ⟨b', hb'⟩ := isSome_iff_exists.mp hsome
        rw [happend] at hknown
        rw [hb', ← View.replay_mark_of_marks hmarks hquiet hb',
          View.replay_mark_of_marks hmarks hquiet hknown]
      | none =>
        have hsettled := settled_iff.mpr hlast
        have hquiet : ∀ e ∈ pending, e.opens c.key = false ∧ e.closes c.key = false ∧
            e.marks c.key = false := by
          intro e he
          obtain ⟨hopens, hmarks⟩ := Bool.or_eq_false_iff.mp (hsettled e he)
          exact ⟨hopens, hno e he, hmarks⟩
        rw [View.replay_mark_of_quiet hquiet, hstart]
        have hblocked := (h.markedBy c.key).blocked b hknown
        rcases hr.marks c hc hopen hpuppet with ⟨e, he, hmarks⟩ | hlastmark
        · exact absurd (hmarks.symm.trans (hquiet e he).2.2) nofun
        · exact hlastmark.symm.trans hblocked

/-! ### Puppets -/

theorem replay_puppet (id : ChannelId) :
    ((learned channels).replay pending).puppet id = (known (acked ++ pending)).puppet id := by
  have happend : known (acked ++ pending) = (known acked).replay pending :=
    View.replay_append _ _ _
  by_cases habout : ∃ e ∈ pending, e.aboutPuppet id = true
  · rw [happend]
    exact View.replay_puppet_of_about habout _ _
  · have hsettled : Settled (aboutPuppet id) pending := by
      intro e he
      rw [Bool.eq_false_iff]
      exact fun htrue => habout ⟨e, he, htrue⟩
    rw [View.replay_puppet_of_settled hsettled]
    cases hknown : (known (acked ++ pending)).puppet id with
    | none => rfl
    | some name =>
      obtain ⟨c, hc, hopen, hpuppet, hout, rfl⟩ := h.puppet id name hknown
      obtain ⟨e, he, hclose⟩ := hr.puppets c hc hpuppet
      obtain ⟨-, hepuppet, hekey⟩ := closes_iff.mp hclose
      have hopened := h.opened c hc
      rw [lastAbout_append] at hopened
      cases hlast : lastAbout (opensId c.id) pending with
      | some e' =>
        -- it has been opened since another channel with its ID was closed
        rw [hlast, some_or] at hopened
        obtain rfl := Option.some.inj hopened
        refine absurd ⟨_, (mem_of_lastAbout hlast).1, ?_⟩ habout
        exact aboutPuppet_iff.mpr ⟨.inl rfl, hpuppet, hout, rfl⟩
      | none =>
        have hown := h.own c hc e (by
          rw [since_append, hlast, if_neg (by simp)]
          exact mem_append_right _ he) (congrArg Prod.snd hekey)
        rw [isPuppet, hown.name] at hepuppet
        exact absurd (hpuppet.symm.trans hepuppet) (by simp)

end

/-! ### The main input -/

/-- After the session agent has been opened that was opened last, the main input is what all events
make it. -/
theorem main_of_last (h : Accounts channels log)
    (hlast : lastAbout opensAgent log = some agent) {v : View}
    (hnone : v.mark agent.key = none) :
    (v.replay (agent :: since opensAgent log)).main = (known log).main := by
  have hopens := (mem_of_lastAbout hlast).2
  have hsettled := settled_since opensAgent log
  have hmain : (v.step agent).main = agent.channelId := by
    rw [View.main_step, hopens, hnone]
    rfl
  have hmark : ((v.step agent).mark agent.key).isSome = true := by
    rw [View.mark_step, if_pos (opens_of_opensAgent hopens)]
    rfl
  have hnew := View.noNewAgent_of_settled (v := v.step agent) hsettled
  rw [View.replay_cons]
  rcases h.main agent hlast with ⟨⟨c, hc, hopen, hagent, hkey⟩, hknown⟩ | ⟨hclosed, hknown⟩
  · rw [hknown, View.replay_main_kept hnew, hmain]
    intro front e back heq hcloses hid
    have hcid : e.channelId = c.id := by
      rw [hid, hmain]
      exact (congrArg Prod.snd hkey).symm
    have hown := h.own_agent hlast hc hagent hkey (e := e) (by rw [heq]; simp) hcid
    have hcclosed := hown.closed (closes_iff.mp hcloses).1
    exact absurd (hopen.symm.trans hcclosed) nofun
  · rw [hknown]
    exact View.replay_main_closed hnew hmark (.inr hmain) hclosed

section

variable (h : Books channels (acked ++ pending))
  (hlast : lastAbout opensAgent (acked ++ pending) = some agent)
  (hold : ¬ AgentIsNew channels pending agent)
include h hlast hold

/-- Where the session agent is not new, no event brings a new one. -/
theorem noNewAgent (hlearned : AgentIsLearned channels pending agent) :
    (learned channels).NoNewAgent pending := by
  rintro front e back rfl hopens
  by_cases hkey : e.key = agent.key
  · have hsome : (lastAbout opensAgent (front ++ e :: back)).isSome = true :=
      lastAbout_isSome.mpr ⟨e, by simp, hopens⟩
    have hrepeats : Repeats channels
        (upToLast opensAgent (front ++ e :: back)) agent.key := by
      by_contra hnot
      exact hold ⟨hsome, hnot⟩
    rw [hkey]
    refine Repeats.isSome h.toAccounts ⟨hrepeats.1, fun x hx => hrepeats.2 x ?_⟩
    exact mem_upToLast hopens hx
  · refine Repeats.isSome h.toAccounts ?_
    have hfits := hlearned.2 front.length (by simp) e (by simp)
    rw [take_left] at hfits
    exact hfits (opens_of_opensAgent hopens) (.inl hopens) hkey

/-- Where the session agent is not new and is open, no event closes it. -/
theorem not_closes (hc : c ∈ channels) (hopen : c.closed = false) (hagent : c.isSessionAgent = true)
    (hkey : c.key = agent.key) : ∀ e ∈ pending, e.closes agent.key = false := by
  intro e he
  rw [Bool.eq_false_iff]
  intro hcloses
  obtain ⟨hstatus, -, hekey⟩ := closes_iff.mp hcloses
  have hearlier : e ∉ since opensAgent (acked ++ pending) := by
    intro hlater
    have heid : e.channelId = c.id := congrArg Prod.snd (hekey.trans hkey.symm)
    have hcclosed := (h.own_agent hlast hc hagent hkey hlater heid).closed hstatus
    exact absurd (hopen.symm.trans hcclosed) nofun
  rw [since_append] at hearlier
  cases hlast' : lastAbout opensAgent pending with
  | none =>
    rw [hlast', if_neg (by simp)] at hearlier
    exact hearlier (mem_append_right _ he)
  | some agent' =>
    rw [hlast', if_pos isSome_some] at hearlier
    have hrepeats : Repeats channels (upToLast opensAgent pending) agent.key := by
      by_contra hnot
      exact hold ⟨by rw [hlast']; rfl, hnot⟩
    obtain ⟨front, hfront⟩ := eq_append_of_lastAbout hlast'
    have hopens := (mem_of_lastAbout hlast').2
    rw [hfront] at he
    rcases mem_append.mp he with hfirst | hrest
    · rw [hfront] at hrepeats
      have hno := hrepeats.2 e (mem_upToLast hopens hfirst)
      exact absurd (hcloses.symm.trans hno) nofun
    · rcases mem_cons.mp hrest with rfl | hrest
      · have hopened := (opensAgent_iff.mp hopens).1
        exact absurd (hopened.symm.trans hstatus) nofun
      · exact hearlier hrest

end

section

variable (hr : Restorable channels (acked ++ pending) pending)
  (h : Books channels (acked ++ pending))
  (hclosed : ∀ c ∈ channels, c.closed = true → c.makeChannelStatusChange .statusClose ∈ pending)
include hr h hclosed

theorem replay_main :
    ((learned channels).replay pending).main = (known (acked ++ pending)).main := by
  cases hlast : lastAbout opensAgent (acked ++ pending) with
  | none =>
    have hsettled := settled_iff.mpr hlast
    have hnone : lastAbout NamedChannel.isSessionAgent channels = none := by
      rw [← settled_iff]
      intro c hc
      rw [Bool.eq_false_iff]
      intro hagent
      have hmem := (mem_of_lastAbout (h.opened c hc)).1
      exact absurd ((opensAgent_opened hagent).symm.trans (hsettled _ hmem)) nofun
    rw [h.noAgent hlast]
    refine View.replay_main_zero (View.noNewAgent_of_settled ?_) (main_learned_of_none hnone)
    exact fun e he => hsettled e (mem_append_right _ he)
  | some agent =>
    by_cases hnew : AgentIsNew channels pending agent
    · -- up to where it is opened, nothing matters
      obtain ⟨hsome, hnot⟩ := hnew
      obtain ⟨agent', hlast'⟩ := isSome_iff_exists.mp hsome
      have hsame := hlast
      rw [lastAbout_append, hlast', some_or] at hsame
      obtain rfl := Option.some.inj hsame
      obtain ⟨front', hfront', hnone⟩ := h.fresh agent' hlast
      have hsince : since opensAgent (acked ++ pending) =
          since opensAgent pending := by
        rw [since_append, if_pos hsome]
      obtain ⟨front, hfront⟩ := eq_append_of_lastAbout hlast'
      have hopens := (mem_of_lastAbout hlast').2
      have hupTo : upToLast opensAgent pending = front ++ [agent'] := by
        rw [hfront]
        exact upToLast_append_cons _ _ hopens (settled_since _ _)
      have heq : front' = acked ++ front := by
        rw [hsince] at hfront'
        nth_rewrite 1 [hfront] at hfront'
        rw [← append_assoc] at hfront'
        exact (append_cancel_right hfront').symm
      have hunknown : ((learned channels).replay front).mark agent'.key = none := by
        rw [heq, known, View.replay_append] at hnone
        by_cases hclose : ∃ e ∈ front, e.closes agent'.key = true
        · rw [View.replay_mark_of_closes hclose _ (View.new.replay acked)]
          exact hnone
        · have hno : ∀ e ∈ front, e.closes agent'.key = false := by
            intro e he
            rw [Bool.eq_false_iff]
            exact fun htrue => hclose ⟨e, he, htrue⟩
          rw [← not_isSome_iff_eq_none, View.isSome_replay_mark hno] at hnone ⊢
          rintro (hlearned | hopened)
          · refine hnot ⟨exists_of_learned_mark hlearned, ?_⟩
            rw [hupTo]
            intro e he
            rcases mem_append.mp he with he | he
            · exact hno e he
            · obtain rfl := mem_singleton.mp he
              simp [closes, (opensAgent_iff.mp hopens).1]
          · exact hnone (.inr hopened)
      have hmain := main_of_last h.toAccounts hlast hunknown
      rw [hsince] at hmain
      rw [← hmain, ← View.replay_append, ← hfront]
    · have hlearned := (hr.agent agent hlast).resolve_left hnew
      have hnoNew := noNewAgent h hlast hnew hlearned
      rcases h.main agent hlast with ⟨⟨c, hc, hopen, hagent, hkey⟩, hknown⟩ | ⟨hends, hknown⟩
      · have hsome : (lastAbout NamedChannel.isSessionAgent channels).isSome = true :=
          lastAbout_isSome.mpr ⟨c, hc, hagent⟩
        obtain ⟨c', hc'⟩ := isSome_iff_exists.mp hsome
        have hid : c'.id = agent.channelId := congrArg Prod.snd (hlearned.1 c' hc')
        have hcid : c.id = agent.channelId := congrArg Prod.snd hkey
        have hmain : (learned channels).main = agent.channelId :=
          (main_learned_of_last hc').trans hid
        have hother : ∀ key : ChannelKey, key.2 = agent.channelId → key ≠ agent.key →
            ¬ ∃ d ∈ channels, d.key = key := by
          rintro key hkeyid hne ⟨d, hd, rfl⟩
          rw [h.eq_of_id hd hc (hkeyid.trans hcid.symm)] at hne
          exact hne hkey
        rw [hknown, View.replay_main_kept hnoNew, hmain]
        rintro front e back rfl hcloses hemain
        have heid : e.channelId = agent.channelId := hemain.trans hmain
        have hne : e.key ≠ agent.key := by
          intro hekey
          have hno := not_closes h hlast hnew hc hopen hagent hkey e (by simp)
          exact absurd ((hekey ▸ hcloses).symm.trans hno) nofun
        rw [← not_isSome_iff_eq_none]
        intro hmark
        rcases View.isSome_or_opens hmark with hstart | ⟨x, hx, hopens⟩
        · exact hother e.key heid hne (exists_of_learned_mark hstart)
        · obtain ⟨before, after, rfl⟩ := append_of_mem hx
          have hxkey := (opens_iff.mp hopens).2.2
          have hxid : x.channelId = agent.channelId := (congrArg Prod.snd hxkey).trans heid
          have hfits := hlearned.2 before.length (by simp) x (by simp)
          have hrepeats := hfits (hxkey ▸ hopens) (.inr hxid) (hxkey ▸ hne)
          exact hother x.key hxid (hxkey ▸ hne) hrepeats.1
      · rw [hknown]
        cases hlastagent : lastAbout NamedChannel.isSessionAgent channels with
        | none => exact View.replay_main_zero hnoNew (main_learned_of_none hlastagent)
        | some c =>
          have hkey := hlearned.1 c hlastagent
          obtain ⟨hc, hagent⟩ := mem_of_lastAbout hlastagent
          obtain ⟨e, he, hcloses⟩ := hends
          obtain ⟨hstatus, -, hekey⟩ := closes_iff.mp hcloses
          have heid : e.channelId = c.id := congrArg Prod.snd (hekey.trans hkey.symm)
          have hcclosed := (h.own_agent hlast hc hagent hkey he heid).closed hstatus
          have hpuppet := NamedChannel.isPuppet_of_isSessionAgent hagent
          have hmark : ((learned channels).mark c.key).isSome = true := by
            rw [learned_mark h.toAccounts hc]
            rfl
          refine View.replay_main_closed hnoNew hmark (.inr (main_learned_of_last hlastagent)) ?_
          refine ⟨_, hclosed c hc hcclosed, ?_⟩
          exact closes_iff.mpr ⟨rfl, hpuppet, rfl⟩

/-- **What is learned, with the events heard again, is what all events say.** -/
theorem replay_learned : (learned channels).replay pending = known (acked ++ pending) :=
  View.ext (funext (hr.replay_mark h hclosed)) (hr.replay_main h hclosed)
    (funext (hr.replay_puppet h))

end

end Restorable

end Mutgos.Socket
