import Teletype.Proofs.Session.Run

/-! # What lasts at terminals

A terminal changes as time passes and as its child exits, and a new one comes with every child. What is had by every
new terminal and taken from none by this is had by the terminals of all sessions, whatever is done with them. -/

namespace Teletype

/-- A property that a terminal has from the spawn of its child on, if its device is of some kind, and that stays. -/
structure Terminal.Lasting (q : Device → Prop) (p : Terminal → Prop) : Prop where
  device : q {}
  unused : p {}
  begin : ∀ {d : Device}, q d → ∀ now, p (.begin d now)
  advance : ∀ {t : Terminal}, p t → ∀ now, p (t.advance now)
  exits : ∀ {t : Terminal}, p t → ∀ now code, p (t.apply now (.exit code))
  expect : ∀ {t : Terminal}, p t → ∀ now exit, p (t.expect now exit)
  waitForExit : ∀ {t : Terminal}, p t → ∀ now span, p (t.waitForExit now span).2.1

/-- A session that is started is connected to a device that was ready. -/
theorem Session.start_device {q : Device → Prop} (hq : q {}) {s s' : Session} {h h' : Host} {d : Device}
    (hstart : s.start h = (.ok d, s', h')) (hdevices : ∀ d ∈ h.devices, q d) : q d := by
  have hstarts := s.start_starts h
  rw [hstart] at hstarts
  cases hstarts
  unfold Host.nextDevice
  cases hd : h.devices with
  | nil => exact hq
  | cons d devices => exact hdevices d (hd ▸ List.mem_cons_self)

namespace Store

/-- The terminals of all sessions have a property. -/
def Terminals (p : Terminal → Prop) (st : Store) : Prop := ∀ e ∈ st.entries, p e.terminal

namespace Terminals
variable {p : Terminal → Prop} {q : Device → Prop} {st : Store} {k : Nat} {e : Entry}

theorem withHost (h : st.Terminals p) (host : Host) : (st.withHost host).Terminals p := h

theorem setEntry (h : st.Terminals p) (k : Nat) (he : p e.terminal) : (st.setEntry k e).Terminals p := fun e' hmem =>
  (List.mem_or_eq_of_mem_set hmem).elim (h e') fun heq => heq ▸ he

theorem joined (h : st.Terminals p) (he : p e.terminal) (host : Host) : (st.joined e host).Terminals p := fun e' hmem =>
  (List.mem_append.mp hmem).elim (h e') fun hmem => List.mem_singleton.mp hmem ▸ he

theorem entry (h : st.Terminals p) (he : st.entry? k = some e) : p e.terminal := h e (List.mem_of_getElem? he)

theorem onTerminal (h : st.Terminals p) (k : Nat) {f : Terminal → Terminal} (hf : ∀ t, p t → p (f t)) :
    (st.onTerminal k f).Terminals p := by
  unfold Store.onTerminal
  split
  · exact h
  · next e he => exact h.setEntry k (hf _ (h.entry he))

theorem closeSession (h : st.Terminals p) (k : Nat) : (st.closeSession k).2.Terminals p := by
  unfold Store.closeSession
  split
  · exact h
  · next e he =>
    have ht := h.entry he
    exact (h.withHost _).setEntry k ht

theorem closeReplaced (h : st.Terminals p) (previous : Option Nat) : (st.closeReplaced previous).2.Terminals p := by
  unfold Store.closeReplaced
  split
  · exact h
  · next k s _ =>
    split
    · have hclose := (h.withHost (st.host.tell (.replacing s.id))).closeSession k
      dsimp only
      split <;> next hclosed => rw [hclosed] at hclose; exact hclose
    · exact h

theorem observe (h : st.Terminals p) (k : Nat) (f : Entry → Except Fault Reply) : (st.observe k f).2.Terminals p := by
  unfold Store.observe
  split <;> exact h

theorem resizeSession (h : st.Terminals p) (k : Nat) (columns rows : Int) : (st.resizeSession k columns rows).2.Terminals p := by
  unfold Store.resizeSession
  split
  · exact h
  · next e he =>
    have ht := h.entry he
    exact (h.withHost _).setEntry k ht

section
variable (hp : Terminal.Lasting q p)
include hp

theorem startSession (h : st.Terminals p) (hdevices : ∀ d ∈ st.host.devices, q d) (k : Nat) :
    (st.startSession k).2.Terminals p := by
  unfold Store.startSession
  split
  · exact h
  · next e he =>
    have ht := h.entry he
    split
    · exact (h.withHost _).setEntry k ht
    · next hstart =>
      have hd := Session.start_device hp.device hstart hdevices
      exact (h.withHost _).setEntry k (hp.begin hd st.now)

theorem start (h : st.Terminals p) (hdevices : ∀ d ∈ st.host.devices, q d) (m : Nat) (restricted : Bool) (command : String) :
    (st.start m restricted command).2.Terminals p := by
  cases hm : st.manager? m with
  | none =>
    unfold Store.start
    rw [hm]
    exact h
  | some manager =>
    have hbegins := start_begins hm restricted command
    generalize st.start m restricted command = result at hbegins
    have hinquired : (st.inquired manager restricted).Terminals p := h
    cases hbegins with
    | unresolved | homeless => exact hinquired
    | unstarted credential environment f s host => exact hinquired.joined hp.unused host
    | started credential environment device s host r st' hgranted henvironment hstarts hreplaced =>
      have hbegun := hp.begin (Session.start_device hp.device hstarts.start_eq hdevices) st.now
      have happointed : (((st.inquired manager restricted).joined ⟨s, .begin device st.now, []⟩ host).appoint m manager
          st.entries.length).Terminals p := hinquired.joined hbegun host
      have hclosed := happointed.closeReplaced manager.current
      rw [hreplaced] at hclosed
      exact hclosed

theorem waitForExit (h : st.Terminals p) (k : Nat) (span : Span) : (st.waitForExit k span).2.Terminals p := by
  unfold Store.waitForExit
  split
  · exact h
  · next e he =>
    split
    · exact h.setEntry k (hp.waitForExit (h.entry he) st.now span)
    · exact h

theorem perform (h : st.Terminals p) (hdevices : ∀ d ∈ st.host.devices, q d) (op : Operation) :
    (st.perform op).2.Terminals p := by
  cases op with
  | start m restricted command => exact h.start hp hdevices m restricted command
  | stop m =>
    show (st.stop m).2.Terminals p
    unfold Store.stop
    split
    · exact h
    · exact h.closeSession _
  | resize m columns rows =>
    show (st.resize m columns rows).2.Terminals p
    unfold Store.resize
    split
    · exact h
    · exact h.resizeSession _ columns rows
  | create command environment => exact h.joined hp.unused _
  | startSession k => exact h.startSession hp hdevices k
  | resizeSession k columns rows => exact h.resizeSession k columns rows
  | close k => exact h.closeSession k
  | write k text answers =>
    show (st.write k text answers).2.Terminals p
    unfold Store.write
    split
    · exact h
    · next e he =>
      have ht := h.entry he
      exact h.setEntry k ht
  | scope k =>
    show (st.leave k).2.Terminals p
    unfold Store.leave
    split
    · split
      · exact h.closeSession k
      · exact h
    · exact h
  | handle k | stream k | sameStream k | child k | exitCode k => exact h.observe k _
  | childExits k code => exact h.onTerminal k fun t ht => hp.exits (hp.advance ht st.now) st.now code
  | waitForExit k span exit =>
    have hexpecting := h.onTerminal k fun t ht => hp.expect (hp.advance ht st.now) st.now exit
    exact hexpecting.waitForExit hp k span
  | setEnvironment entries => exact h

theorem turn (h : st.Terminals p) {t : Turn} (hdevices : ∀ d ∈ t.circumstances.devices, q d) :
    (st.turn t).2.Terminals p := by
  have hunder : (st.under t.circumstances).Terminals p := h
  exact hunder.perform hp hdevices t.operation

theorem after (h : st.Terminals p) {turns : List Turn} (hdevices : ∀ t ∈ turns, ∀ d ∈ t.circumstances.devices, q d) :
    (st.after turns).Terminals p := by
  induction turns generalizing st with
  | nil => exact h
  | cons t turns ih =>
    obtain ⟨hfirst, hrest⟩ := List.forall_mem_cons.mp hdevices
    exact ih (h.turn hp hfirst) hrest

end

end Terminals

end Store

end Teletype
