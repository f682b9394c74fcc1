import Teletype.Proofs.Session.Credential
import Teletype.Proofs.Session.Environment
import Teletype.Proofs.Text.Templates

/-! # What a start asks for

The child of a session that a manager starts is determined by the settings of the manager, the command and the variables of
the process, whatever was started before and whoever the shell runs as. -/

namespace Teletype

namespace Shell
variable {s : ShellSettings} {parent : Environment}

open Text.Template (fill_parts Part) in
/-- Where the template is the default one, the home directory is named after the user, whatever the user is called. -/
theorem home_of_default_template (htemplate : s.homeTemplate = ({} : ShellSettings).homeTemplate) :
    s.home = .ok ("/home/" ++ s.runAsUser) := by
  have hparts : ({} : ShellSettings).homeTemplate =
      String.ofList ([Part.literal "/home/".toList, Part.field "user".toList].flatMap Part.written) := rfl
  have hfill : s.home = .ok (String.ofList ("/home/".toList ++ (s.runAsUser.toList ++ []))) := by
    unfold ShellSettings.home
    rw [htemplate, hparts, fill_parts (by decide)]
    rfl
  rw [hfill, List.append_nil, ← String.toList_append, String.ofList_toList]

/-- There are variables for a shell exactly if its home directory can be named. -/
theorem environment_ok_iff : (∃ child, environment s parent = .ok child) ↔ ∃ home, s.home = .ok home := by
  constructor
  · rintro ⟨child, h⟩
    obtain ⟨home, hhome, -⟩ := environment_cases h
    exact ⟨home, hhome⟩
  · rintro ⟨home, hhome⟩
    unfold environment
    rw [hhome]
    exact ⟨_, rfl⟩

end Shell

namespace Store

/-- A start asks for a child exactly if the credential is granted, the home directory can be named and the host opens a
    terminal, and then for one: a leader of its own session on that terminal, with the words and the variables that the
    settings make of the command and of the variables of the process, which stay as they are. -/
theorem start_asks_for_configured_child (managers : List Manager) (turns : List Turn) (c : Circumstances) (m : Nat)
    (manager : Manager) (hm : managers[m]? = some manager) (restricted : Bool) (command : String) :
    let s := manager.settings
    let st := (founded managers).after turns
    let t : Turn := ⟨c, .start m restricted command⟩
    let events := (st.deed t).events
    ((∃ x, .spawning x ∈ events) ↔
      (∃ credential, { manager with database := c.database m, announce := c.announce m }.granted restricted = .ok credential) ∧
        (∃ home, s.home = .ok home) ∧ (st.under c).host.nextFaults.opening = none) ∧
    (∀ x, .spawning x ∈ events → x.Sole events ∧ x.leads = true ∧
      x.argv = (if Text.isAllBlank command then [s.shell] else s.shell :: s.commandArgs ++ [command]) ∧
      Shell.environment s st.environment = .ok x.environment ∧
      (∃ home, s.home = .ok home ∧ Shell.Inherits s home st.environment x.environment) ∧
      Shell.environment s x.environment = .ok x.environment) ∧
    (st.turn t).2.environment = st.environment := by
  intro s st t events
  obtain ⟨now, hnow, hdatabase, hannounce, hsettings⟩ := manager?_under_after hm turns c
  have hgranted := now.granted_congr { manager with database := c.database m, announce := c.announce m } hsettings hdatabase
    hannounce restricted
  have hconfigured := deed_configured hnow restricted command
  rw [hgranted, hsettings] at hconfigured
  refine ⟨⟨?_, ?_⟩, fun x hx => ?_, st.turn_environment rfl⟩
  · rintro ⟨x, hx⟩
    rcases hconfigured with ⟨-, hnone⟩ | ⟨hopens, credential, y, hok, hy⟩
    · exact absurd hx (hnone x)
    · exact ⟨⟨credential, hok⟩, Shell.environment_ok_iff.mp ⟨_, hy.environment⟩, hopens⟩
  · rintro ⟨⟨credential, hok⟩, hhome, hopens⟩
    rcases hconfigured with ⟨⟨f, hrefused⟩ | ⟨f, henvironment⟩ | ⟨f, hopening⟩, -⟩ | ⟨-, _, x, -, hx⟩
    · cases hok.symm.trans hrefused
    · obtain ⟨child, hchild⟩ := Shell.environment_ok_iff.mpr hhome
      cases hchild.symm.trans henvironment
    · cases hopens.symm.trans hopening
    · exact ⟨x, hx.sole.mem⟩
  · rcases hconfigured with ⟨-, hnone⟩ | ⟨-, credential, y, -, hy⟩
    · exact absurd hx (hnone x)
    · obtain rfl : x = y := hy.sole.eq hx
      exact ⟨hy.sole, hy.leads, hy.argv, hy.environment, Shell.environment_inherits hy.environment,
        Shell.environment_again hy.environment⟩

theorem shell_without_language_is_given_one :
    let manager : Manager := { database := groupless }
    let c : Circumstances := { database := fun _ => groupless }
    let turns : List Turn := [⟨c, .setEnvironment [("LANG", ""), ("HOME", "/"), ("PATH", "/bin")]⟩, ⟨c, .start 0 false "id"⟩]
    [manager][0]? = some manager ∧ ∃ x, .spawning x ∈ (((founded [manager]).after turns).deed ⟨c, .start 0 false "ls"⟩).events ∧
      x.argv = ["sh", "-c", "ls"] ∧ x.environment.get? "LANG" = some "C.UTF-8" ∧ x.environment.get? "HOME" = some "/home/session-user" ∧
      x.environment.get? "PATH" = some "/bin" := by
  intro manager c turns
  obtain ⟨hreaches, hspawned, -⟩ := start_asks_for_configured_child [manager] turns c 0 manager rfl false "ls"
  have hparent : ((founded [manager]).after turns).environment = [("LANG", ""), ("HOME", "/"), ("PATH", "/bin")] := by
    decide +kernel
  have hhome := Shell.home_of_default_template (s := manager.settings) rfl
  obtain ⟨x, hx⟩ := hreaches.mpr ⟨⟨none, rfl⟩, ⟨_, hhome⟩, by decide +kernel⟩
  obtain ⟨-, -, hargv, -, ⟨home, hnamed, hinherits⟩, -⟩ := hspawned x hx
  cases hhome.symm.trans hnamed
  rw [hparent] at hinherits
  exact ⟨rfl, x, hx, hargv, hinherits.language, hinherits.home, hinherits.others "PATH" (by decide) (by decide) (by decide)⟩

end Store

end Teletype
