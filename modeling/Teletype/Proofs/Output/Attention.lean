import Teletype.Proofs.Output.Timing
import Teletype.Proofs.Terminal.Changes
import Teletype.Proofs.Terminal.Course

/-! # What a watcher does not miss

A watcher that is attached until the output ends reads all that is queued when something is done on its line. So a wait
that has found nothing by its deadline has read all that was due by then, and what it has not read is still to come. -/

namespace Teletype

/-! ### Agendas -/

namespace Terminal
variable {t : Terminal} {now : Time}

theorem agenda_apply (now : Time) (t : Terminal) (e : Effect) : (apply now t e).agenda = t.agenda := by
  cases e with
  | output bytes => cases hempty : bytes.isEmpty <;> simp [apply, hempty]
  | file | exit | endOfOutput | readFault => rfl

theorem agenda_applyAll (now : Time) : ∀ (effects : List Effect) (t : Terminal), (t.applyAll now effects).agenda = t.agenda
  | [], _ => rfl
  | e :: effects, t => (agenda_applyAll now effects (apply now t e)).trans (agenda_apply now t e)

theorem planAll_inOrder : ∀ (entries : List (Rat × List Effect)) {t : Terminal}, InOrder t.agenda →
    InOrder (entries.foldl (fun t (delay, effects) => t.plan (now + delay, effects)) t).agenda
  | [], _, h => h
  | (delay, effects) :: entries, t, h => planAll_inOrder entries (t := t.plan (now + delay, effects)) h.schedule

/-- An agenda gets the entries that are planned, and nothing else. -/
theorem perm_planAll (now : Time) : ∀ (entries : List (Rat × List Effect)) (t : Terminal),
    (entries.foldl (fun t (delay, effects) => t.plan (now + delay, effects)) t).agenda.Perm
      (t.agenda ++ entries.map fun entry => (now + entry.1, entry.2))
  | [], t => by
    rw [List.map_nil, List.append_nil]
    exact .refl _
  | (delay, effects) :: entries, t => by
    have hfirst := perm_schedule (now + delay, effects) t.agenda
    exact (perm_planAll now entries (t.plan (now + delay, effects))).trans ((hfirst.append_right _).trans List.perm_middle.symm)

theorem mem_planAll {e : Timed} (entries : List (Rat × List Effect)) (h : e ∈ t.agenda) :
    e ∈ (entries.foldl (fun t (delay, effects) => t.plan (now + delay, effects)) t).agenda :=
  (perm_planAll now entries t).mem_iff.mpr (List.mem_append_left _ h)

theorem planned_mem {entry : Rat × List Effect} {entries : List (Rat × List Effect)} (h : entry ∈ entries) (t : Terminal) :
    (now + entry.1, entry.2) ∈ (entries.foldl (fun t (delay, effects) => t.plan (now + delay, effects)) t).agenda :=
  (perm_planAll now entries t).mem_iff.mpr (List.mem_append_right _ (List.mem_map_of_mem h))

theorem planAll_queue (entries : List (Rat × List Effect)) (t : Terminal) :
    (entries.foldl (fun t (delay, effects) => t.plan (now + delay, effects)) t).queue = t.queue := by
  rw [planAll_eq]

theorem begin_inOrder (d : Device) (now : Time) : InOrder (Terminal.begin d now).agenda := by
  refine planAll_inOrder d.events ?_
  rw [agenda_applyAll]
  exact List.Pairwise.nil

theorem type_inOrder (h : InOrder t.agenda) (now : Time) (text : String) : InOrder (t.type now text).2.agenda := by
  unfold type
  dsimp only
  split
  · exact h
  · refine planAll_inOrder _ ?_
    rw [agenda_applyAll]
    exact h

theorem runAgenda_inOrder (now : Time) : ∀ {agenda : List Timed} (t : Terminal), InOrder agenda →
    InOrder (t.runAgenda now agenda).agenda
  | [], _, _ => List.Pairwise.nil
  | (time, effects) :: rest, t, h => by
    unfold runAgenda
    split
    · exact runAgenda_inOrder now _ h.tail
    · exact h

theorem pollExit_inOrder (deadline : Deadline) : ∀ (fuel : Nat) {t : Terminal} (now : Time), InOrder t.agenda →
    InOrder (t.pollExit deadline fuel now).2.1.agenda
  | 0, _, _, h => h
  | fuel + 1, t, now, h => by
    unfold pollExit
    split
    · cases t.exit with
      | some code => exact h
      | none => exact pollExit_inOrder deadline fuel _ (runAgenda_inOrder _ t h)
    · exact h

end Terminal

namespace Output

open Text (Bytes)

/-! ### Reading all -/

/-- The watcher reads as long as the output has not ended. -/
def Watcher.Reads (w : Watcher) : Prop := w.ended = false → w.attached = true

namespace Watcher

theorem ended_drain : ∀ (queue : List Item) {w : Watcher}, w.ended = true → (w.drain queue).1.ended = true
  | [], _, hw => hw
  | item :: rest, w, hw => by
    rw [drain]
    split
    · cases item with
      | chunk bytes => exact ended_drain rest (w := w.read (.chunk bytes)) hw
      | endOfOutput | fault => exact ended_drain rest rfl
    · exact hw

/-- A watcher that reads and has not come to the end has read all. -/
theorem Reads.drain : ∀ (queue : List Item) {w : Watcher}, w.Reads → (w.drain queue).1.ended = false →
    (w.drain queue).1.attached = true ∧ (w.drain queue).2 = (queue, [])
  | [], _, hw, h => ⟨hw h, rfl⟩
  | item :: rest, w, hw, h => by
    have hopen : w.ended = false := by
      by_contra hended
      rw [ended_drain _ (Bool.not_eq_false _ ▸ hended)] at h
      cases h
    rw [Watcher.drain, hw hopen, if_pos rfl] at h ⊢
    cases item with
    | chunk bytes =>
      have ih := Reads.drain rest (w := w.read (.chunk bytes)) hw
      generalize (w.read (.chunk bytes)).drain rest = d at h ih ⊢
      obtain ⟨w', taken, left⟩ := d
      obtain ⟨hattached, hall⟩ := ih h
      cases hall
      exact ⟨hattached, rfl⟩
    | endOfOutput | fault =>
      -- The end is read, and nothing after it takes that back.
      rw [show ((w.read _).drain rest).1.ended = true from ended_drain rest rfl] at h
      cases h

end Watcher

namespace Line
variable {l l' : Line} {marker bytes : Bytes} {start : Int} {limit : Time} {entry : Timed} {agenda rest : List Timed}

theorem ended_settle (h : l.watcher.ended = true) : l.settle.watcher.ended = true := Watcher.ended_drain l.terminal.queue h

theorem reads_settle (h : l.watcher.Reads) : l.settle.watcher.Reads := fun hopen => (h.drain _ hopen).1

/-- What was queued has gone over the line when the watcher has settled. -/
theorem settle_reads (h : l.watcher.Reads) (hopen : l.settle.watcher.ended = false) :
    Goes l (l.terminal.queue.map .read) l.settle ∧ l.settle.terminal.queue = [] := by
  have hall := (h.drain l.terminal.queue hopen).2
  unfold settle
  generalize hd : l.watcher.drain l.terminal.queue = d at hall
  obtain ⟨w, taken, left⟩ := d
  cases hall
  exact ⟨⟨rfl, (Watcher.drain_eq hd).2⟩, rfl⟩

theorem perform_reads (h : l.watcher.Reads) (hopen : (l.perform entry).watcher.ended = false) :
    (∃ items : List Item, Goes l (items.map .read) (l.perform entry) ∧ ∀ bytes ≠ [], .output bytes ∈ entry.2 → .chunk bytes ∈ items) ∧
      (l.perform entry).terminal.queue = [] := by
  obtain ⟨hgoes, hqueue⟩ := settle_reads
    (l := { l with now := later l.now entry.1, terminal := l.terminal.applyAll entry.1 entry.2 }) h hopen
  refine ⟨⟨_, ⟨hgoes.past, hgoes.watcher⟩, fun bytes hne houtput => ?_⟩, hqueue⟩
  show _ ∈ (l.terminal.applyAll entry.1 entry.2).queue
  rw [Terminal.applyAll_queue]
  refine List.mem_append_right _ (List.mem_filterMap.mpr ⟨_, houtput, ?_⟩)
  simp [Effect.item?, hne]

/-! ### Devices -/

/-- A device that takes all that is typed takes this text. -/
theorem type_takes (h : ∀ n, l.terminal.device.writeFault n = none) (text : String) : (l.type text).1 = none := by
  show (l.terminal.type l.now text).1 = none
  simp [Terminal.type, h]

/-! ### Lines that are attended to -/

/-- The watcher reads, and what is to come is in the order of time. -/
structure Attentive (l : Line) : Prop where
  inOrder : InOrder l.terminal.agenda
  reads : l.watcher.Reads

theorem Attentive.type (h : l.Attentive) (text : String) : (l.type text).2.Attentive :=
  ⟨Terminal.type_inOrder h.inOrder l.now text, reads_settle h.reads⟩

theorem attentive_expire (h : (l.withAgenda agenda).Attentive) (deadline : Deadline) :
    ((l.withAgenda agenda).expire deadline).Attentive := by
  cases deadline <;> exact ⟨h.inOrder, h.reads⟩

theorem attentive_listen (deadline : Deadline) : ∀ {agenda : List Timed} {l : Line}, InOrder agenda → l.watcher.Reads →
    (listen marker start deadline l agenda).2.Attentive
  | [], l, _, hreads => @attentive_expire l [] ⟨List.Pairwise.nil, hreads⟩ deadline
  | entry :: rest, l, horder, hreads => by
    cases hdue : comesBy deadline entry.1 with
    | true =>
      rw [listen_due hdue]
      exact attentive_expire ⟨horder, hreads⟩ deadline
    | false =>
      have hreads' : (l.perform entry).watcher.Reads := reads_settle hreads
      rcases listen_cons hdue rest l with hlisten | ⟨found, -, hlisten⟩ <;> rw [hlisten]
      · exact attentive_listen deadline horder.tail hreads'
      · exact ⟨horder.tail, hreads'⟩

/-- The end of the output stays read. -/
theorem ended_listen (deadline : Deadline) : ∀ {agenda : List Timed} {l : Line}, l.watcher.ended = true →
    (listen marker start deadline l agenda).2.watcher.ended = true
  | [], l, h => by cases deadline <;> exact h
  | entry :: rest, l, h => by
    cases hdue : comesBy deadline entry.1 with
    | true =>
      rw [listen_due hdue]
      cases deadline <;> exact h
    | false =>
      have hended : (l.perform entry).watcher.ended = true := Watcher.ended_drain _ h
      rcases listen_cons hdue rest l with hlisten | ⟨found, -, hlisten⟩ <;> rw [hlisten]
      · exact ended_listen deadline hended
      · exact hended

theorem listen_idle (marker : Bytes) (start : Int) {deadline : Deadline} (hahead : comesBy deadline l.now = false) (agenda : List Timed) :
    listen marker start deadline l ((l.now, []) :: agenda) = listen marker start deadline (l.perform (l.now, [])) agenda ∨
    ∃ found, (l.perform (l.now, [])).watcher.verdict? marker start = some found ∧
      listen marker start deadline l ((l.now, []) :: agenda) = (found, (l.perform (l.now, [])).withAgenda agenda) :=
  listen_cons hahead agenda l

theorem ended_waitFor (h : l.watcher.ended = true) (span : Span) : (l.waitFor marker start span).line.watcher.ended = true := by
  unfold Line.waitFor
  split
  · exact h
  · dsimp only
    split
    · exact h
    · exact ended_listen _ h

theorem Attentive.waitFor (h : l.Attentive) (marker : Bytes) (start : Int) (span : Span) :
    (l.waitFor marker start span).line.Attentive := by
  unfold Line.waitFor
  split
  · exact h
  · dsimp only
    split
    · exact h
    · next hover =>
      have hahead := comesBy_of_isOver (Bool.not_eq_true _ ▸ hover)
      have hreads : (l.perform (l.now, [])).watcher.Reads := reads_settle h.reads
      rcases listen_idle marker start hahead l.terminal.agenda with hlisten | ⟨found, -, hlisten⟩ <;>
        rw [hlisten]
      · exact attentive_listen _ h.inOrder hreads
      · exact ⟨h.inOrder, hreads⟩

theorem Attentive.waitForExit (h : l.Attentive) (span : Span) : (l.waitForExit span).2.Attentive := by
  have hsettled : Attentive (settle { l with
      terminal := (l.terminal.waitForExit l.now span).2.1, now := (l.terminal.waitForExit l.now span).2.2 }) :=
    ⟨Terminal.pollExit_inOrder _ _ _ h.inOrder, reads_settle h.reads⟩
  unfold Line.waitForExit
  dsimp only
  split <;> exact ⟨hsettled.inOrder, hsettled.reads⟩

/-! ### Nothing is missed -/

/-- All that has come by now is read. -/
structure UpToDate (l : Line) : Prop where
  queue : l.terminal.queue = []
  agenda : ∀ e ∈ l.terminal.agenda, l.now ≤ e.1

/-- Listening in vain until a deadline reads all that comes before it; of the rest nothing is lost. -/
theorem listen_reads : ∀ {agenda : List Timed} {l l' : Line}, InOrder agenda → l.watcher.Reads → l.terminal.queue = [] →
    listen marker start (.at limit) l agenda = (false, l') → l'.watcher.ended = false →
    l'.terminal.queue = [] ∧ (∀ e ∈ l'.terminal.agenda, limit ≤ e.1) ∧ ∃ items : List Item, Goes l (items.map .read) l' ∧
      ∀ e ∈ agenda, ∀ bytes ≠ [], .output bytes ∈ e.2 → e ∈ l'.terminal.agenda ∨ .chunk bytes ∈ items
  | [], l, l', _, _, hqueue, h, _ => by
    cases h
    exact ⟨hqueue, nofun, [], ⟨(List.append_nil _).symm, rfl⟩, nofun⟩
  | entry :: rest, l, l', horder, hreads, hqueue, h, hopen => by
    cases hdue : comesBy (.at limit) entry.1 with
    | true =>
      rw [listen_due hdue] at h
      cases h
      have hle : limit ≤ entry.1 := by simpa [comesBy] using hdue
      refine ⟨hqueue, fun e he => ?_, [], ⟨(List.append_nil _).symm, rfl⟩, fun e he bytes _ _ => Or.inl he⟩
      rcases List.mem_cons.mp he with rfl | he
      · exact hle
      · exact hle.trans (List.rel_of_pairwise_cons horder he)
    | false =>
      rcases listen_cons hdue rest l with hlisten | ⟨found, hv, hlisten⟩ <;>
        rw [hlisten] at h
      · have hgoesOn : (l.perform entry).watcher.ended = false := by
          by_contra hended
          rw [show l' = (listen marker start (.at limit) (l.perform entry) rest).2 from (congrArg (·.2) h).symm,
            ended_listen _ (Bool.not_eq_false _ ▸ hended)] at hopen
          cases hopen
        have hreads' : (l.perform entry).watcher.Reads := reads_settle hreads
        obtain ⟨⟨items, hgoes, hread⟩, hqueue'⟩ := perform_reads hreads hgoesOn
        obtain ⟨hq, hagenda, items', hgoes', hread'⟩ := listen_reads horder.tail hreads' hqueue' h hopen
        refine ⟨hq, hagenda, items ++ items', List.map_append ▸ hgoes.trans hgoes', fun e he bytes hne houtput => ?_⟩
        rcases List.mem_cons.mp he with rfl | he
        · exact Or.inr (List.mem_append_left _ (hread bytes hne houtput))
        · exact (hread' e he bytes hne houtput).imp_right (List.mem_append_right _)
      · cases h
        have hended := verdict?_eq_false hv
        rw [show (l.perform entry).watcher.ended = false from hopen] at hended
        cases hended

/-- A wait in vain, unless the output ends, has read what was queued and gone on through the agenda up to its deadline. -/
theorem waitFor_listens {seconds : Rat} (hpos : 0 < seconds) (hfound : (l.waitFor marker start (.finite seconds)).found = false)
    (hopen : (l.waitFor marker start (.finite seconds)).line.watcher.ended = false) :
    listen marker start (.at (l.now + seconds)) (l.perform (l.now, [])) l.terminal.agenda =
      (false, (l.waitFor marker start (.finite seconds)).line) := by
  have hahead : (Deadline.after l.now (.finite seconds)).isOver l.now = false := by
    simpa [Deadline.after, Deadline.isOver] using hpos
  cases hv : l.watcher.verdict? marker start with
  | some found =>
    rw [waitFor_of_verdict hv] at hfound hopen
    obtain rfl : found = false := hfound
    cases hopen.symm.trans (verdict?_eq_false hv)
  | none =>
    have hwait : l.waitFor marker start (.finite seconds) =
        ⟨(listen marker start (.at (l.now + seconds)) l ((l.now, []) :: l.terminal.agenda)).1,
          (listen marker start (.at (l.now + seconds)) l ((l.now, []) :: l.terminal.agenda)).2, true⟩ := by
      unfold waitFor
      rw [hv]
      dsimp only
      rw [hahead, if_neg Bool.false_ne_true]
      rfl
    rw [hwait] at hfound hopen ⊢
    rcases listen_idle marker start (comesBy_of_isOver hahead) l.terminal.agenda with
      hlisten | ⟨found, hverdict, hlisten⟩
    · change listen marker start (.at (l.now + seconds)) l _ = _ at hlisten
      rw [hlisten] at hfound ⊢
      exact Prod.ext hfound rfl
    · change listen marker start (.at (l.now + seconds)) l _ = _ at hlisten
      rw [hlisten] at hfound hopen
      obtain rfl : found = false := hfound
      cases hopen.symm.trans (verdict?_eq_false hverdict)

/-- A wait in vain takes all of its time and then is up to date. What it has not read of what was to come is still to
    come. -/
theorem Attentive.waitFor_reads {seconds : Rat} (h : l.Attentive) (hpos : 0 < seconds)
    (hfound : (l.waitFor marker start (.finite seconds)).found = false)
    (hopen : (l.waitFor marker start (.finite seconds)).line.watcher.ended = false) :
    (l.waitFor marker start (.finite seconds)).line.UpToDate ∧ ∃ items : List Item,
      Goes l (items.map .read) (l.waitFor marker start (.finite seconds)).line ∧
      ∀ e ∈ l.terminal.agenda, ∀ bytes ≠ [], .output bytes ∈ e.2 →
        e ∈ (l.waitFor marker start (.finite seconds)).line.terminal.agenda ∨ .chunk bytes ∈ items := by
  have hlisten := waitFor_listens hpos hfound hopen
  have hle := waitFor_le l marker start seconds
  rw [max_eq_left hpos.le] at hle
  have hgoesOn : (l.perform (l.now, [])).watcher.ended = false := by
    by_contra hended
    have hended' : (listen marker start (.at (l.now + seconds)) (l.perform (l.now, [])) l.terminal.agenda).2.watcher.ended =
        true := ended_listen _ (Bool.not_eq_false _ ▸ hended)
    rw [hlisten, hopen] at hended'
    cases hended'
  obtain ⟨⟨items, hgoes, -⟩, hqueue⟩ := perform_reads h.reads hgoesOn
  have hreads : (l.perform (l.now, [])).watcher.Reads := reads_settle h.reads
  obtain ⟨hq, hagenda, items', hgoes', hread⟩ := listen_reads h.inOrder hreads hqueue hlisten hopen
  refine ⟨⟨hq, fun e he => hle.trans (hagenda e he)⟩, items ++ items', List.map_append ▸ hgoes.trans hgoes',
    fun e he bytes hne houtput => (hread e he bytes hne houtput).imp_right (List.mem_append_right _)⟩

theorem settle_settle (l : Line) : l.settle.settle = l.settle := by
  have hagain := Watcher.drain_left l.terminal.queue l.watcher
  unfold settle
  generalize l.watcher.drain l.terminal.queue = d at hagain
  obtain ⟨w, taken, left⟩ := d
  simp only [hagain, List.map_nil, List.append_nil]

/-- Once a text is typed nothing is left to read. -/
theorem settle_type (l : Line) (text : String) : (l.type text).2.settle = (l.type text).2 := settle_settle _

theorem mem_agenda_type {e : Timed} (h : e ∈ l.terminal.agenda) (text : String) : e ∈ (l.type text).2.terminal.agenda := by
  change e ∈ (l.terminal.type l.now text).2.agenda
  unfold Terminal.type
  dsimp only
  split
  · exact h
  · refine Terminal.mem_planAll _ ?_
    rw [Terminal.agenda_applyAll]
    exact h

/-- What the device does at once when a text is typed is read, and the rest is to come. -/
theorem Attentive.type_reads (h : l.Attentive) {text : String} (htakes : (l.type text).1 = none)
    (hopen : (l.type text).2.watcher.ended = false) :
    (∃ items : List Item, Goes l (.typed text :: items.map .read) (l.type text).2 ∧ ∀ bytes ≠ [],
      .output bytes ∈ (l.terminal.device.react (l.terminal.typed.map (·.2)) text).atOnce → .chunk bytes ∈ items) ∧
    ∀ e ∈ (l.terminal.device.react (l.terminal.typed.map (·.2)) text).later,
      (l.now + e.1, e.2) ∈ (l.type text).2.terminal.agenda := by
  let reaction := l.terminal.device.react (l.terminal.typed.map (·.2)) text
  let noted : Terminal := { l.terminal with typed := l.terminal.typed ++ [(l.now, text)] }
  let reacted := reaction.later.foldl (fun t (delay, effects) => t.plan (l.now + delay, effects)) (noted.applyAll l.now reaction.atOnce)
  have htype : (l.terminal.type l.now text).2 = reacted := by
    change (l.terminal.type l.now text).1 = none at htakes
    unfold Terminal.type at htakes ⊢
    dsimp only at htakes ⊢
    split at htakes
    · cases htakes
    · rfl
  have hline : (l.type text).2 = settle ({ l with terminal := reacted }.note (.typed text)) := by
    rw [← htype]
    rfl
  rw [hline] at hopen ⊢
  obtain ⟨hgoes, -⟩ := settle_reads (l := { l with terminal := reacted }.note (.typed text)) h.reads hopen
  have hnote : Goes l [.typed text] ({ l with terminal := reacted }.note (.typed text)) := ⟨rfl, rfl⟩
  refine ⟨⟨_, hnote.trans hgoes, fun bytes hne houtput => ?_⟩, fun e he => ?_⟩
  · show _ ∈ reacted.queue
    rw [Terminal.planAll_queue, Terminal.applyAll_queue]
    refine List.mem_append_right _ (List.mem_filterMap.mpr ⟨_, houtput, ?_⟩)
    simp [Effect.item?, hne]
  · exact Terminal.planned_mem he _

end Line

end Output

end Teletype
