import CertAuthority.CommandLine.Run
import CertAuthority.Proofs.Json.Parse
import CertAuthority.Proofs.Request.Answers
import CertAuthority.Proofs.Service.Filing

/-!
# Requests that can be read again

A service on tables in files answers every reader of the requests as long as no agent has submitted
a value that is nested deeper than the levels that the table leaves to it.  A single one that is
makes all requests unreadable, for good.  The command line lets agents' values be nested three
levels deeper than that.
-/

namespace CertAuthority.Service

open Ledger (agentLevels corrupt held Answers Sequel)

/-- A value in which all numbers are integers. -/
abbrev IntegralValue := { v : Json // v.IsValue ∧ v.IsIntegral }

/-- A service at work on a host, where agents tell of themselves in integers. -/
def counter (s : Service) : Interface where
  Operation := { errand : Errand // errand.IsProper }
  Result errand := errand.1.Result
  procedure errand := s.perform errand.1

/-- A host on which the tables in the files of a directory were opened. -/
structure Opened where
  directory : String
  host : Host
  /-- The files before. -/
  disk : Disk
  tables : host.tables = Tables.inFiles directory
  opened : (Tables.inFiles directory).openAll disk = (.ok (), host.disk)
  clock : ∀ count, (host.clock count).IsValid
  integral : ∀ entries, held directory host.disk = .ok entries → Ledger.IsIntegral entries

section Start

theorem hasDirectory_default (name : TableName) :
    (Tables.fileOf "" name).HasDirectory default := by
  have hparent : Path.parent? (Tables.fileOf "" name).path = some "" := by cases name <;> decide
  intro parent hfound
  cases hparent.symm.trans hfound
  exact .inl rfl

/-- A table whose file is not there yet is empty. -/
theorem load_default (name : TableName) :
    (Tables.fileOf "" name).load (α := name.Row) default = .ok [] := by
  have hpath : (Tables.fileOf "" name).path = Tables.fileName name := by cases name <;> decide
  have hstands : Disk.Stands default (Tables.fileOf "" name).path [Tables.fileName name] := by
    rw [hpath]
    refine Disk.stands_of_name ?_ (Tables.isName_fileName name) ?_ nofun
    · cases name <;> decide
    · cases name <;> decide
  rw [FileTable.load, hstands.read]
  rfl

theorem openNames_default (names : List TableName) :
    (Tables.inFiles "").openNames names default = (.ok (), default) := by
  induction names with
  | nil => rfl
  | cons name names ih =>
      rw [Tables.openNames, Tables.openOn_inFiles,
        FileTable.openAt_of_hasDirectory (hasDirectory_default name), load_default]
      exact ih

theorem isValid_epoch : (Instant.ofSeconds 0).IsValid :=
  ⟨by decide, .inl (by decide)⟩

/-- Tables are opened where nothing is yet. -/
instance : Inhabited Opened where
  default :=
    { directory := ""
      host := ⟨default, Tables.inFiles "", 0, fun _ => .ofSeconds 0, fun _ _ => []⟩
      disk := default
      tables := rfl
      opened := openNames_default TableName.all
      clock := fun _ => isValid_epoch
      integral := by
        intro entries hheld
        cases (load_default .requests).symm.trans hheld
        exact List.forall_mem_nil _ }

end Start

section Run

variable (s : Service)

/-- The submission of a request. -/
def submission (csrPem token : String) (source : IpAddress) (agentInfo : IntegralValue) :
    s.counter.Operation :=
  ⟨.submit csrPem token source agentInfo.1, agentInfo.2⟩

/-- That a request with this value of an agent was accepted. -/
def Accepted (state : Hosted s.counter) (agentInfo : IntegralValue) : Prop :=
  ∃ i csrPem token source, ∃ id : RequestId,
    state.Ended i (s.submission csrPem token source agentInfo) (.ok id)

variable {s}

/-- A submission files its request, or has filed it; all else files none. -/
def Filing : (operation : s.counter.Operation) → Procedure (s.counter.Result operation) → Prop
  | ⟨.submit csrPem _ source agentInfo, _⟩, rest =>
    (∃ id : RequestId, rest = .done id) ∨ Procedure.Files (Brings csrPem source agentInfo) rest
  | ⟨_, _⟩, rest => rest.Only fun e => ∀ reply, e.filed? reply = none

/-- What is certain of all that is under way. -/
structure Promise (operation : s.counter.Operation)
    (rest : Procedure (s.counter.Result operation)) : Prop where
  heeds : rest.Heeds Ledger.Told Ledger.Asked fun _ => True
  filing : Filing operation rest

theorem promise_procedure (operation : s.counter.Operation) :
    Promise operation (s.counter.procedure operation) := by
  obtain ⟨errand, hproper⟩ := operation
  refine ⟨perform_heeds s errand hproper, ?_⟩
  have hother := perform_enters_none s errand
  cases errand with
  | submit csrPem token source agentInfo => exact .inr (submit_files s csrPem token source agentInfo)
  | _ => exact hother rfl

theorem Filing.next {operation : s.counter.Operation} {e : Effect}
    {next : e.Reply → Procedure (s.counter.Result operation)}
    (hfiling : Filing operation (.call e next)) (reply : e.Reply) :
    Filing operation (next reply) := by
  obtain ⟨errand, hproper⟩ := operation
  cases errand with
  | submit csrPem token source agentInfo =>
      rcases hfiling with ⟨id, hdone⟩ | hfiles
      · cases hdone
      · cases hfiled : e.filed? reply with
        | none => exact .inr (hfiles.2 reply hfiled)
        | some found =>
            obtain ⟨id, -, -, hnext⟩ := hfiles.1 reply _ _ hfiled
            exact .inl ⟨id, hnext⟩
  | _ => exact hfiling.2 reply

section Turn

variable {directory : String} {state : Hosted s.counter} {i : Nat} {csrPem token : String}
variable {source : IpAddress} {agentInfo : IntegralValue} {id : RequestId}

/-- No submission is accepted at its start. -/
theorem procedure_ne_done :
    s.counter.procedure (s.submission csrPem token source agentInfo) ≠ .done id := by
  intro hdone
  have hfiles := submit_files s csrPem token source agentInfo.1
  rw [show s.submit csrPem token source agentInfo.1 = .done id from hdone] at hfiles
  exact hfiles

/-- A submission is accepted by the effect that enters its request. -/
theorem filed_of_ended
    (hfiling : ∀ (i : Nat) (operation : s.counter.Operation)
      (rest : Procedure (s.counter.Result operation)),
      state.tasks[i]? = some ⟨operation, rest⟩ → Filing operation rest) (turn : Turn s.counter)
    (hended : (state.act turn).Ended i (s.submission csrPem token source agentInfo) (.ok id)) :
    state.Ended i (s.submission csrPem token source agentInfo) (.ok id) ∨
      ∃ e next r,
        state.tasks[i]? = some ⟨s.submission csrPem token source agentInfo, .call e next⟩ ∧
        (state.act turn).host = (state.host.reply e).2 ∧
        e.filed? (state.host.reply e).1 = some (id.text, r) ∧
        Brings csrPem source agentInfo.1 id r := by
  obtain ⟨rest, htask, houtcome⟩ := hended
  obtain rfl := Procedure.eq_done_of_outcome? houtcome
  rcases state.act_cases turn with ⟨operation, hact⟩ | ⟨j, operation, e, next, -, hfound, hact⟩ |
    ⟨j, operation, hfound, hact⟩ | hact
  · rw [hact] at htask
    rcases Office.found_of_append htask with hold | ⟨-, hnew⟩
    · exact .inl ⟨_, hold, houtcome⟩
    · obtain ⟨rfl, hrest⟩ := Task.mk.inj hnew
      exact absurd (eq_of_heq hrest) procedure_ne_done
  · rw [hact] at htask
    rcases Office.found_of_set htask with ⟨rfl, hnew⟩ | ⟨-, hold⟩
    · obtain ⟨rfl, hrest⟩ := Task.mk.inj hnew
      replace hrest := eq_of_heq hrest
      right
      rcases hfiling i _ _ hfound with ⟨_, hdone⟩ | hfiles
      · cases hdone
      · cases hfiled : e.filed? (state.host.reply e).1 with
        | none =>
            have hnext := hfiles.2 _ hfiled
            rw [hrest] at hnext
            exact hnext.elim
        | some found =>
            obtain ⟨key, r⟩ := found
            obtain ⟨other, rfl, hbrings, hnext⟩ := hfiles.1 _ _ _ hfiled
            cases hrest.symm.trans hnext
            exact ⟨e, next, r, hfound, by rw [hact], hfiled, hbrings⟩
    · exact .inl ⟨_, hold, houtcome⟩
  · rw [hact] at htask
    rcases Office.found_of_set htask with ⟨rfl, hnew⟩ | ⟨-, hold⟩
    · obtain ⟨rfl, hrest⟩ := Task.mk.inj hnew
      exact absurd (eq_of_heq hrest) procedure_ne_done
    · exact .inl ⟨_, hold, houtcome⟩
  · rw [hact] at htask
    exact .inl ⟨_, htask, houtcome⟩

/-- A turn enters no request, or that of a submission which it accepts. -/
theorem sequel_act (habides : state.Abides (Ledger.Custody directory) Promise)
    (turn : Turn s.counter) :
    Sequel directory state.host.disk (state.act turn).host.disk none ∨
      ∃ agentInfo key r, s.Accepted (state.act turn) agentInfo ∧ r.agentInfo = agentInfo.1 ∧
        Sequel directory state.host.disk (state.act turn).host.disk (some (key, r)) := by
  rcases state.act_cases turn with ⟨operation, hact⟩ | ⟨i, operation, e, next, -, hfound, hact⟩ |
    ⟨i, operation, hfound, hact⟩ | hact
  · rw [hact]
    exact .inl (.same rfl)
  · obtain ⟨hheeds, hfiling⟩ := habides.tasks i _ _ hfound
    have hsequel := habides.law.sequel hheeds.1
    cases hfiled : e.filed? (state.host.reply e).1 with
    | none =>
        rw [hfiled] at hsequel
        rw [hact]
        exact .inl hsequel
    | some found =>
        obtain ⟨key, r⟩ := found
        rw [hfiled] at hsequel
        obtain ⟨errand, hproper⟩ := operation
        cases errand with
        | submit csrPem token source agentInfo =>
            rcases hfiling with ⟨_, hdone⟩ | hfiles
            · cases hdone
            · obtain ⟨id, -, hbrings, hnext⟩ := hfiles.1 _ _ _ hfiled
              rw [hact]
              refine .inr ⟨⟨agentInfo, hproper⟩, key, r,
                ⟨i, csrPem, token, source, id, .done id, ?_, rfl⟩, hbrings.agentInfo, hsequel⟩
              rw [List.getElem?_set_self (List.getElem?_eq_some_iff.mp hfound).1, hnext]
              rfl
        | _ => cases (hfiling.1 _).symm.trans hfiled
  · rw [hact]
    exact .inl (.same rfl)
  · rw [hact]
    exact .inl (.same rfl)

/-- Whoever was accepted by a turn had a request entered. -/
theorem sequel_of_ended (habides : state.Abides (Ledger.Custody directory) Promise)
    (turn : Turn s.counter)
    (hended : (state.act turn).Ended i (s.submission csrPem token source agentInfo) (.ok id)) :
    state.Ended i (s.submission csrPem token source agentInfo) (.ok id) ∨
      ∃ r, Brings csrPem source agentInfo.1 id r ∧
        Sequel directory state.host.disk (state.act turn).host.disk (some (id.text, r)) := by
  rcases filed_of_ended (fun i operation rest hfound => (habides.tasks i operation rest hfound).filing)
    turn hended with hold | ⟨e, next, r, hfound, hhost, hfiled, hbrings⟩
  · exact .inl hold
  · have hsequel := habides.law.sequel (habides.tasks i _ _ hfound).heeds.1
    rw [hfiled, ← hhost] at hsequel
    exact .inr ⟨r, hbrings, hsequel⟩

/-- That the requests can be read unless a value was accepted that is nested too deep. -/
inductive Standing (directory : String) (state : Hosted s.counter) : Prop where
  | readable (hheld : ∃ entries, held directory state.host.disk = .ok entries)
    (hshallow : ∀ agentInfo, s.Accepted state agentInfo → agentInfo.1.depth ≤ agentLevels)
  | unreadable (hheld : held directory state.host.disk = .error (corrupt directory))
    (hdeep : ∃ agentInfo, s.Accepted state agentInfo ∧ agentLevels < agentInfo.1.depth)

theorem Standing.act (hstanding : Standing directory state)
    (habides : state.Abides (Ledger.Custody directory) Promise) (turn : Turn s.counter) :
    Standing directory (state.act turn) := by
  have hsequel := sequel_act habides turn
  cases hstanding with
  | readable hheld hshallow =>
      obtain ⟨entries, hheld⟩ := hheld
      cases hlater : held directory (state.act turn).host.disk with
      | ok later =>
          refine .readable ⟨later, hlater⟩ ?_
          rintro agentInfo ⟨i, csrPem, token, source, id, hended⟩
          rcases sequel_of_ended habides turn hended with hold | ⟨r, hbrings, hsequel⟩
          · exact hshallow agentInfo ⟨i, csrPem, token, source, id, hold⟩
          · cases hsequel with
            | filed _ _ _ hafter =>
                rw [hlater, hbrings.agentInfo] at hafter
                split at hafter
                · assumption
                · cases hafter
      | error e =>
          rcases hsequel with hsequel | ⟨agentInfo, key, r, haccepted, hinfo, hsequel⟩
          · cases hsequel with
            | same hsame => cases (hlater.symm.trans hsame).trans hheld
            | changed _ _ hafter => cases hlater.symm.trans hafter
          · cases hsequel with
            | filed _ _ _ hafter =>
                rw [hinfo] at hafter
                split at hafter
                · cases hlater.symm.trans hafter
                · next hdeep =>
                    exact .unreadable hafter ⟨agentInfo, haccepted, Nat.lt_of_not_le hdeep⟩
  | unreadable hheld hdeep =>
      obtain ⟨agentInfo, ⟨i, csrPem, token, source, id, hended⟩, hdeep⟩ := hdeep
      refine .unreadable ?_ ⟨agentInfo, ⟨i, csrPem, token, source, id, hended.act turn⟩, hdeep⟩
      rcases hsequel with hsequel | ⟨_, _, _, -, -, hsequel⟩
      · cases hsequel with
        | same hsame => exact hsame.trans hheld
        | changed hbefore _ _ => cases hheld.symm.trans hbefore
      · cases hsequel with
        | filed hbefore _ _ _ => cases hheld.symm.trans hbefore

/-- That the path of the requests stands for no place. -/
def Elsewhere (directory : String) (h : Host) : Prop :=
  Ledger.Keeps directory h ∧ ¬ ∃ place, h.disk.Stands (Ledger.file directory).path place

/-- Where the path of the requests stands for no place, no submission is accepted. -/
theorem not_accepted_act (habides : state.Abides (Elsewhere directory) Filing)
    (hnone : ∀ agentInfo, ¬ s.Accepted state agentInfo) (turn : Turn s.counter) :
    ∀ agentInfo, ¬ s.Accepted (state.act turn) agentInfo := by
  rintro agentInfo ⟨i, csrPem, token, source, id, hended⟩
  rcases filed_of_ended habides.tasks turn hended with hold | ⟨e, next, r, -, -, hfiled, -⟩
  · exact hnone agentInfo ⟨i, csrPem, token, source, id, hold⟩
  · exact habides.law.2 (habides.law.1.stands_of_filed hfiled)

end Turn

namespace Opened

variable (o : Opened)

/-- Nothing was asked for yet. -/
def start (s : Service) : Hosted s.counter :=
  ⟨o.host, []⟩

theorem keeps : Ledger.Keeps o.directory o.host :=
  ⟨o.tables, (Tables.of_openAll o.opened).1 .requests⟩

theorem exists_held : ∃ entries, held o.directory o.host.disk = .ok entries :=
  (Tables.of_openAll o.opened).2 .requests

theorem not_accepted_start (agentInfo : IntegralValue) :
    ¬ s.Accepted (o.start s) agentInfo := by
  rintro ⟨i, csrPem, token, source, id, rest, htask, -⟩
  cases htask

/-- Where the path of the requests stands for a place, the host has them in its custody. -/
theorem abides_after
    (hplace : ∃ place, o.host.disk.Stands (Ledger.file o.directory).path place)
    (turns : List (Turn s.counter)) :
    ((o.start s).after turns).Abides (Ledger.Custody o.directory) Promise ∧
      Standing o.directory ((o.start s).after turns) := by
  refine Hosted.after_of_act (fun state => state.Abides (Ledger.Custody o.directory) Promise ∧
    Standing o.directory state) (fun state turn h => ⟨?_, h.2.act h.1 turn⟩) ?_ turns
  · exact h.1.act promise_procedure (fun h operation e next hcustody hpromise =>
      ⟨hcustody.reply hpromise.heeds.1,
        hpromise.heeds.2 _ (hcustody.told e), hpromise.filing.next _⟩) turn
  · refine ⟨⟨⟨o.keeps, o.clock, hplace, o.integral⟩, nofun⟩, .readable o.exists_held ?_⟩
    exact fun agentInfo haccepted => absurd haccepted (o.not_accepted_start agentInfo)

/-- Where it does not, no submission is accepted. -/
theorem stands_of_accepted (turns : List (Turn s.counter)) {agentInfo : IntegralValue}
    (haccepted : s.Accepted ((o.start s).after turns) agentInfo) :
    ∃ place, o.host.disk.Stands (Ledger.file o.directory).path place := by
  by_contra hplace
  have hafter : ((o.start s).after turns).Abides (Elsewhere o.directory) Filing ∧
      ∀ agentInfo, ¬ s.Accepted ((o.start s).after turns) agentInfo := by
    refine Hosted.after_of_act (fun state => state.Abides (Elsewhere o.directory) Filing ∧
      ∀ agentInfo, ¬ s.Accepted state agentInfo)
      (fun state turn h => ⟨?_, not_accepted_act h.1 h.2 turn⟩) ?_ turns
    · refine h.1.act (fun operation => (promise_procedure operation).filing)
        (fun h operation e next hlaw hfiling => ⟨⟨hlaw.1.reply e, ?_⟩, hfiling.next _⟩) turn
      rintro ⟨place, hstands⟩
      exact hlaw.2 ⟨place, (hlaw.1.grows e).stands_iff.mp hstands⟩
    · exact ⟨⟨⟨o.keeps, hplace⟩, nofun⟩, o.not_accepted_start⟩
  exact hafter.2 agentInfo haccepted

end Opened

/-- What is certain of the requests of a service that works on files, after any turns. -/
structure Readability (s : Service) (o : Opened) (turns : List (Turn s.counter)) : Prop where
  /-- Once a submission was accepted, all readers are answered by the table, as long as no value
  that was accepted is nested too deep. -/
  readable : ∀ agentInfo, s.Accepted ((o.start s).after turns) agentInfo →
    (∀ agentInfo, s.Accepted ((o.start s).after turns) agentInfo →
      agentInfo.1.depth ≤ agentLevels) →
    ∃ entries, Answers s o.directory ((o.start s).after turns).host (.ok entries)
  /-- Once one is, nobody is answered. -/
  unreadable : ∀ agentInfo, s.Accepted ((o.start s).after turns) agentInfo →
    agentLevels < agentInfo.1.depth →
      Answers s o.directory ((o.start s).after turns).host (.error (corrupt o.directory))
  /-- By the turn that accepts a submission, its request joins those that could be read before, and
  unless it is nested too deep, readers are answered by the table with all of them. -/
  entered : ∀ turn i csrPem token source agentInfo (id : RequestId),
    ¬ ((o.start s).after turns).Ended i (s.submission csrPem token source agentInfo) (.ok id) →
    (((o.start s).after turns).act turn).Ended i (s.submission csrPem token source agentInfo)
      (.ok id) →
    ∃ before r, Answers s o.directory ((o.start s).after turns).host (.ok before) ∧
      before.find? id.text = none ∧ Brings csrPem source agentInfo.1 id r ∧
        (agentInfo.1.depth ≤ agentLevels → ∃ later,
          Answers s o.directory (((o.start s).after turns).act turn).host (.ok later) ∧
            ∀ key, later.find? key =
              if key = id.text then some (.fresh r) else before.find? key) ∧
        (agentLevels < agentInfo.1.depth →
          Answers s o.directory (((o.start s).after turns).act turn).host
            (.error (corrupt o.directory)))
  /-- What the command line accepts of an agent's value: all that text may hold, which is three
  levels more. -/
  typed : ∀ text v c found, (CommandLine.readAgentInfo (some text)).run c = (.ok v, found) →
    v.IsValue ∧ v.depth ≤ agentLevels + 3
  typable : ∀ agentInfo : IntegralValue, agentInfo.1.depth ≤ agentLevels + 3 → ∀ c,
    (CommandLine.readAgentInfo (some (Json.toPrettyText agentInfo.1))).run c = (.ok agentInfo.1, c)

end Run

theorem readAgentInfo_run (text : String) (c : Console) :
    (CommandLine.readAgentInfo (some text)).run c =
      match Json.readText Json.Reader.json text with
      | some v => (.ok v, c)
      | none => (.error "--agent-info is not valid JSON", c) := by
  rw [CommandLine.readAgentInfo]
  cases Json.readText Json.Reader.json text <;> rfl

/-- The requests can be read if and only if no submission was accepted that is nested deeper than
124 levels; the command line accepts 127. -/
theorem readability (s : Service) (o : Opened) (turns : List (Turn s.counter)) :
    Readability s o turns where
  readable := by
    intro agentInfo haccepted hshallow
    have hplace := o.stands_of_accepted turns haccepted
    obtain ⟨habides, hstanding⟩ := o.abides_after hplace turns
    have hanswers := habides.law.answers s
    cases hstanding with
    | readable hheld _ =>
        obtain ⟨entries, hheld⟩ := hheld
        rw [hheld] at hanswers
        exact ⟨entries, hanswers⟩
    | unreadable _ hdeep =>
        obtain ⟨deep, hdeepAccepted, hdeep⟩ := hdeep
        exact absurd (hshallow deep hdeepAccepted) (Nat.not_le_of_lt hdeep)
  unreadable := by
    intro agentInfo haccepted hdeep
    have hplace := o.stands_of_accepted turns haccepted
    obtain ⟨habides, hstanding⟩ := o.abides_after hplace turns
    have hanswers := habides.law.answers s
    cases hstanding with
    | readable _ hshallow =>
        exact absurd (hshallow agentInfo haccepted) (Nat.not_le_of_lt hdeep)
    | unreadable hheld _ =>
        rw [hheld] at hanswers
        exact hanswers
  entered := by
    intro turn i csrPem token source agentInfo id hnot hended
    have hnext : ((o.start s).after turns).act turn = (o.start s).after (turns ++ [turn]) := by
      rw [Hosted.after_append]
      rfl
    have haccepted : s.Accepted ((o.start s).after (turns ++ [turn])) agentInfo :=
      ⟨i, csrPem, token, source, id, hnext ▸ hended⟩
    have hplace := o.stands_of_accepted (turns ++ [turn]) haccepted
    obtain ⟨habides, -⟩ := o.abides_after hplace turns
    have hlater := (o.abides_after hplace (turns ++ [turn])).1.law.answers s
    rw [← hnext] at hlater
    obtain ⟨r, hbrings, hsequel⟩ := (sequel_of_ended habides turn hended).resolve_left hnot
    have hanswers := habides.law.answers s
    cases hsequel with
    | @filed before _ _ hbefore hnew _ hafter =>
        rw [hbefore] at hanswers
        rw [hafter, hbrings.agentInfo] at hlater
        refine ⟨before, r, hanswers, hnew, hbrings, fun hshallow => ?_, fun hdeep => ?_⟩
        · rw [if_pos hshallow] at hlater
          exact ⟨_, hlater, Entries.find?_insert before id.text r⟩
        · rw [if_neg (Nat.not_le_of_lt hdeep)] at hlater
          exact hlater
  typed := by
    intro text v c found hread
    rw [readAgentInfo_run] at hread
    split at hread
    · next hvalue =>
        cases hread
        exact Json.isValue_of_readText hvalue
    · cases hread
  typable := by
    intro agentInfo hdepth c
    have hlevels : agentInfo.1.depth ≤ Json.textLevels := hdepth
    rw [readAgentInfo_run, Json.readText_toPrettyText agentInfo.2.1 agentInfo.2.2, if_pos hlevels]

end CertAuthority.Service
