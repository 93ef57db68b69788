import InternTradingGame.Positions.Settlement
import InternTradingGame.Response.Models
import InternTradingGame.Library.Runs

/-!
# Teams and their keys

A team is registered once, under a number of its own, and is given the API
key by which it is known from then on.  The service files it under its id,
and files the id under the key.

`RegistrySound` says that the two dictionaries fit: a key leads to the team
it was given to and to no other.  The keys are drawn at random, so a draw is
an argument, which must not have been drawn before.
-/

namespace InternTradingGame

/-! ## The game service -/

/-- A team of the game and the key it is known by. -/
structure RegisteredTeam where
  teamId : String
  teamName : String
  role : String
  apiKey : String
deriving DecidableEq, Repr

/-- What the exchange looks at of a team. -/
def RegisteredTeam.info (team : RegisteredTeam) : TeamInfo where
  teamId := team.teamId
  role := team.role

/--
The registered teams, the team of each API key, and the number of the last
team.
-/
structure GameService where
  teams : OrderedDict String RegisteredTeam
  apiKeyToTeam : OrderedDict String String
  teamCounter : ℕ

/-- The id of the team with a number: `TEAM_{number:03d}`. -/
def formatTeamId (number : ℕ) : String :=
  "TEAM_" ++ String.ofList (List.leftpad 3 '0' (toString number).toList)

namespace GameService

/-- No team has been registered. -/
def new : GameService where
  teams := ∅
  apiKeyToTeam := ∅
  teamCounter := 0

/-- The next team, with the key which is made of a token. -/
def nextTeam (service : GameService) (teamName role token : String) :
    RegisteredTeam where
  teamId := formatTeamId (service.teamCounter + 1)
  teamName := teamName
  role := role
  apiKey := "itg_" ++ token

/-- `register_team`. -/
def registerTeam (teamName role token : String) (service : GameService) :
    RegisteredTeam × GameService :=
  let team := service.nextTeam teamName role token
  (team,
    { teams := service.teams.set team.teamId team
      apiKeyToTeam := service.apiKeyToTeam.set team.apiKey team.teamId
      teamCounter := service.teamCounter + 1 })

/-- `get_team_by_api_key`. -/
def getTeamByApiKey (service : GameService) (apiKey : String) :
    Option RegisteredTeam :=
  match service.apiKeyToTeam.get? apiKey with
  | none => none
  | some teamId => if teamId = "" then none else service.teams.get? teamId

/-- `get_team_by_id`. -/
def getTeamById (service : GameService) (teamId : String) :
    Option RegisteredTeam :=
  service.teams.get? teamId

/-- `get_team_by_name`: the first team of this name. -/
def getTeamByName (service : GameService) (teamName : String) :
    Option RegisteredTeam :=
  service.teams.values.find? fun team => team.teamName = teamName

end GameService

/-! ## The endpoints -/

/-- A registration whose name has an admissible length. -/
structure TeamRegistration where
  teamName : String
  role : String
  nameGiven : 1 ≤ teamName.length
  nameShort : teamName.length ≤ 50

namespace GameEndpoints

/-- `register_team`, before the positions of the team are initialized. -/
def registerTeam (registration : TeamRegistration) (token : String)
    (service : GameService) :
    Except ApiError RegisteredTeam × GameService :=
  if registration.role ≠ "market_maker" then
    (.error
      { code := "UNSUPPORTED_ROLE"
        message := "Only market_maker role supported in MVP"
        details :=
          some [("requested_role", .text registration.role)] },
      service)
  else if (service.getTeamByName registration.teamName).isSome then
    (.error
      { code := "DUPLICATE_TEAM_NAME"
        message :=
          "Team name '" ++ registration.teamName ++ "' already exists"
        details := none },
      service)
  else
    let (team, registered) :=
      service.registerTeam registration.teamName registration.role token
    (.ok team, registered)

/-- `get_team_info`. -/
def getTeamInfo (teamId : String) (service : GameService) :
    Except ApiError RegisteredTeam :=
  match service.getTeamById teamId with
  | none =>
      .error
        { code := "TEAM_NOT_FOUND"
          message := "Team " ++ teamId ++ " not found"
          details := none }
  | some team => .ok team

end GameEndpoints

/-- An error which the endpoints answer with: a status code and a text. -/
structure HTTPException where
  statusCode : ℕ
  detail : String
deriving DecidableEq, Repr

/-- `get_current_team`: the team of the key in the header. -/
def getCurrentTeam (apiKey : Option String) (service : GameService) :
    Except HTTPException RegisteredTeam :=
  match apiKey with
  | none => .error missing
  | some key =>
      if key = "" then .error missing
      else
        match service.getTeamByApiKey key with
        | none =>
            .error { statusCode := 401, detail := "Invalid API key" }
        | some team => .ok team
where
  missing : HTTPException :=
    { statusCode := 401
      detail := "Missing API key. Include X-API-Key header." }

/-! ## Team ids -/

/-- Teams with different numbers have different ids. -/
theorem formatTeamId_injective : Function.Injective formatTeamId := by
  intro left right equal
  have lists := congrArg String.toList equal
  simp only [formatTeamId, String.toList_append, String.toList_ofList,
    Nat.toString_eq_ofList_toDigits, List.append_cancel_left_eq] at lists
  have numbers := congrArg (Nat.ofDigitChars 10 · 0) lists
  simpa only [ofDigitChars_leftpad] using numbers

theorem formatTeamId_ne_empty (number : ℕ) : formatTeamId number ≠ "" := by
  intro empty
  have lists := congrArg String.toList empty
  simp [formatTeamId] at lists

/-! ## What holds of the registry -/

namespace GameService

/-- The team has been registered. -/
def Registered (service : GameService) (team : RegisteredTeam) : Prop :=
  service.teams.get? team.teamId = some team

end GameService

/-- The dictionaries fit, and every team can be told apart from the others. -/
structure RegistrySound (service : GameService) : Prop where
  filed : ∀ teamId team, service.teams.get? teamId = some team →
    team.teamId = teamId
  numbered : ∀ team, service.Registered team →
    ∃ number ≤ service.teamCounter, team.teamId = formatTeamId number
  keyed : ∀ apiKey teamId,
    service.apiKeyToTeam.get? apiKey = some teamId ↔
      ∃ team, service.Registered team ∧
        team.apiKey = apiKey ∧ team.teamId = teamId
  issued : ∀ team, service.Registered team → team.apiKey ≠ ""
  named : ∀ left right, service.Registered left →
    service.Registered right → left.teamName = right.teamName →
      left = right

namespace RegistrySound

variable {service : GameService} {left right team : RegisteredTeam}

theorem new : RegistrySound GameService.new where
  filed := by
    intro teamId team found
    cases found
  numbered := by
    intro team found
    cases found
  keyed := by
    intro apiKey teamId
    constructor
    · intro found
      cases found
    · rintro ⟨team, found, _⟩
      cases found
  issued := by
    intro team found
    cases found
  named := by
    intro left right found
    cases found

/-- The teams on file are the registered ones. -/
theorem registered_of_get? (sound : RegistrySound service)
    {teamId : String} (found : service.teams.get? teamId = some team) :
    service.Registered team := by
  rw [GameService.Registered, sound.filed teamId team found]
  exact found

theorem registered_of_mem (sound : RegistrySound service)
    (member : team ∈ service.teams.values) : service.Registered team := by
  rcases List.mem_map.mp member with ⟨⟨teamId, _⟩, listed, rfl⟩
  exact sound.registered_of_get?
    ((service.teams.get?_eq_some_iff _ _).mpr listed)

/-- Registered teams with the same id are the same. -/
theorem eq_of_teamId (found : service.Registered left)
    (foundOther : service.Registered right)
    (same : left.teamId = right.teamId) : left = right := by
  rw [GameService.Registered, same] at found
  exact Option.some.inj (found.symm.trans foundOther)

/-- Registered teams with the same key are the same. -/
theorem eq_of_apiKey (sound : RegistrySound service)
    (found : service.Registered left)
    (foundOther : service.Registered right)
    (same : left.apiKey = right.apiKey) : left = right := by
  have first := (sound.keyed left.apiKey left.teamId).mpr
    ⟨left, found, rfl, rfl⟩
  have second := (sound.keyed left.apiKey right.teamId).mpr
    ⟨right, foundOther, same.symm, rfl⟩
  exact eq_of_teamId found foundOther
    (Option.some.inj (first.symm.trans second))

/-- A key finds exactly the team to which it was given. -/
theorem getTeamByApiKey_iff (sound : RegistrySound service)
    (apiKey : String) :
    service.getTeamByApiKey apiKey = some team ↔
      service.Registered team ∧ team.apiKey = apiKey := by
  rw [GameService.getTeamByApiKey]
  cases found : service.apiKeyToTeam.get? apiKey with
  | none =>
      constructor
      · intro impossible
        cases impossible
      · rintro ⟨registered, rfl⟩
        have keyed := (sound.keyed team.apiKey team.teamId).mpr
          ⟨team, registered, rfl, rfl⟩
        cases keyed.symm.trans found
  | some teamId =>
      rcases (sound.keyed apiKey teamId).mp found with
        ⟨owner, registered, rfl, rfl⟩
      rcases sound.numbered owner registered with ⟨number, _, id⟩
      have given : owner.teamId ≠ "" := id ▸ formatTeamId_ne_empty number
      simp only [if_neg given]
      constructor
      · intro same
        rcases Option.some.inj (registered.symm.trans same) with rfl
        exact ⟨registered, rfl⟩
      · rintro ⟨other, key⟩
        rw [sound.eq_of_apiKey other registered key]
        exact registered

/-- The key in the header is that of the current team. -/
theorem getCurrentTeam_iff (sound : RegistrySound service)
    (apiKey : Option String) :
    getCurrentTeam apiKey service = .ok team ↔
      service.Registered team ∧ apiKey = some team.apiKey := by
  cases apiKey with
  | none =>
      constructor
      · intro impossible
        cases impossible
      · rintro ⟨_, impossible⟩
        cases impossible
  | some key =>
      rw [getCurrentTeam]
      by_cases empty : key = ""
      · rw [if_pos empty]
        constructor
        · intro impossible
          cases impossible
        · rintro ⟨registered, same⟩
          exact absurd ((Option.some.inj same).symm.trans empty)
            (sound.issued team registered)
      · rw [if_neg empty]
        have looked := @getTeamByApiKey_iff service team sound key
        cases found : service.getTeamByApiKey key with
        | none =>
            constructor
            · intro impossible
              cases impossible
            · rintro ⟨registered, same⟩
              cases found.symm.trans
                (looked.mpr ⟨registered, (Option.some.inj same).symm⟩)
        | some owner =>
            rw [found] at looked
            constructor
            · intro same
              cases same
              rcases looked.mp rfl with ⟨registered, rfl⟩
              exact ⟨registered, rfl⟩
            · rintro ⟨registered, same⟩
              have owns := looked.mpr
                ⟨registered, (Option.some.inj same).symm⟩
              cases owns
              rfl

end RegistrySound

/-! ## Registering a team -/

section Register

variable {service : GameService} {teamName role token : String}
  {team : RegisteredTeam}

/-- The next team has an id no other team has. -/
theorem RegistrySound.nextTeam_new (sound : RegistrySound service) :
    service.teams.get?
      (service.nextTeam teamName role token).teamId = none := by
  cases found : service.teams.get?
      (service.nextTeam teamName role token).teamId with
  | none => rfl
  | some other =>
      rcases sound.numbered other (sound.registered_of_get? found) with
        ⟨number, le, id⟩
      have same := (sound.filed _ other found).symm.trans id
      have next := formatTeamId_injective same
      omega

/-- The registered teams are those of before and the next one. -/
theorem RegistrySound.registered_registerTeam
    (sound : RegistrySound service) :
    (service.registerTeam teamName role token).2.Registered team ↔
      service.Registered team ∨
        team = service.nextTeam teamName role token := by
  show (service.teams.set _ _).get? team.teamId = some team ↔ _
  rw [OrderedDict.get?_set]
  by_cases isNext :
      team.teamId = (service.nextTeam teamName role token).teamId
  · rw [if_pos isNext]
    constructor
    · intro same
      exact Or.inr (Option.some.inj same).symm
    · rintro (registered | rfl)
      · rw [GameService.Registered, isNext, sound.nextTeam_new]
          at registered
        cases registered
      · rfl
  · rw [if_neg isNext]
    constructor
    · exact Or.inl
    · rintro (registered | rfl)
      · exact registered
      · exact absurd rfl isNext

/-- No registered team has a name which is not found. -/
theorem GameService.Registered.ne_of_getTeamByName
    (registered : service.Registered team)
    (unnamed : service.getTeamByName teamName = none) :
    team.teamName ≠ teamName := by
  have listed : team ∈ service.teams.values :=
    List.mem_map_of_mem
      ((service.teams.get?_eq_some_iff _ _).mp registered)
  simpa using List.find?_eq_none.mp unnamed team listed

/-- A new name and a new key keep the teams apart. -/
theorem RegistrySound.registerTeam (sound : RegistrySound service)
    (drawn : ¬ service.apiKeyToTeam.Contains ("itg_" ++ token))
    (unnamed : service.getTeamByName teamName = none) :
    RegistrySound (service.registerTeam teamName role token).2 where
  filed := by
    intro teamId other found
    have stored : (service.teams.set _ _).get? teamId = some other := found
    rw [OrderedDict.get?_set] at stored
    split_ifs at stored with same
    · rw [← Option.some.inj stored, same]
    · exact sound.filed teamId other stored
  numbered := by
    intro other registered
    show ∃ number ≤ service.teamCounter + 1, _
    rcases sound.registered_registerTeam.mp registered with old | rfl
    · rcases sound.numbered other old with ⟨number, le, id⟩
      exact ⟨number, le.trans (Nat.le_succ _), id⟩
    · exact ⟨_, le_rfl, rfl⟩
  keyed := by
    intro apiKey teamId
    show (service.apiKeyToTeam.set _ _).get? apiKey = some teamId ↔ _
    simp only [sound.registered_registerTeam]
    rw [OrderedDict.get?_set]
    split_ifs with same
    · constructor
      · intro stored
        exact ⟨_, Or.inr rfl, same.symm, Option.some.inj stored⟩
      · rintro ⟨other, registered | rfl, key, rfl⟩
        · exfalso
          apply drawn
          apply OrderedDict.contains_of_get?
          have keyed := (sound.keyed apiKey other.teamId).mpr
            ⟨other, registered, key, rfl⟩
          exact same ▸ keyed
        · rfl
    · rw [sound.keyed]
      constructor
      · rintro ⟨other, registered, facts⟩
        exact ⟨other, Or.inl registered, facts⟩
      · rintro ⟨other, registered | rfl, key, facts⟩
        · exact ⟨other, registered, key, facts⟩
        · exact absurd key.symm same
  issued := by
    intro other registered
    rcases sound.registered_registerTeam.mp registered with old | rfl
    · exact sound.issued other old
    · intro empty
      have lists := congrArg String.toList empty
      simp [GameService.nextTeam] at lists
  named := by
    intro left right found foundOther same
    rcases sound.registered_registerTeam.mp found with old | rfl
    · rcases sound.registered_registerTeam.mp foundOther with older | rfl
      · exact sound.named left right old older same
      · exact absurd same (old.ne_of_getTeamByName unnamed)
    · rcases sound.registered_registerTeam.mp foundOther with older | rfl
      · exact absurd same.symm (older.ne_of_getTeamByName unnamed)
      · rfl

end Register

/-! ## Runs of the registration -/

/-- A request to register a team, and the token which is drawn for it. -/
structure RegistryCall where
  registration : TeamRegistration
  token : String

namespace RegistryCall

/-- The registry afterwards, whatever is answered. -/
def execute (call : RegistryCall) (service : GameService) : GameService :=
  (GameEndpoints.registerTeam call.registration call.token service).2

/-- The token has not been drawn before. -/
def Allowed (call : RegistryCall) (service : GameService) : Prop :=
  ¬ service.apiKeyToTeam.Contains ("itg_" ++ call.token)

instance (call : RegistryCall) (service : GameService) :
    Decidable (call.Allowed service) :=
  inferInstanceAs (Decidable (¬ _))

end RegistryCall

/-- One registration. -/
abbrev RegistryStep : GameService → RegistryCall → GameService → Prop :=
  GuardedStep RegistryCall.Allowed RegistryCall.execute

/-- A registration is refused, or adds the next team. -/
theorem registerTeam_cases (registration : TeamRegistration)
    (token : String) (service : GameService) :
    (∃ error, GameEndpoints.registerTeam registration token service =
        (.error error, service)) ∨
      service.getTeamByName registration.teamName = none ∧
        GameEndpoints.registerTeam registration token service =
          (.ok (service.nextTeam registration.teamName registration.role
              token),
            (service.registerTeam registration.teamName registration.role
              token).2) := by
  rw [GameEndpoints.registerTeam]
  by_cases supported : registration.role ≠ "market_maker"
  · rw [if_pos supported]
    exact Or.inl ⟨_, rfl⟩
  · rw [if_neg supported]
    by_cases taken :
        (service.getTeamByName registration.teamName).isSome = true
    · rw [if_pos taken]
      exact Or.inl ⟨_, rfl⟩
    · rw [if_neg taken]
      refine Or.inr ⟨?_, rfl⟩
      exact Option.not_isSome_iff_eq_none.mp taken

theorem RegistrySound.step {service next : GameService}
    {call : RegistryCall} (sound : RegistrySound service)
    (step : RegistryStep service call next) :
    RegistrySound next ∧
      ∀ team, service.Registered team → next.Registered team := by
  rcases step with ⟨allowed, rfl⟩
  rw [RegistryCall.execute]
  rcases registerTeam_cases call.registration call.token service with
    ⟨_, refused⟩ | ⟨unnamed, registered⟩
  · rw [refused]
    exact ⟨sound, fun _ known => known⟩
  · rw [registered]
    exact ⟨sound.registerTeam allowed unnamed,
      fun _ known => sound.registered_registerTeam.mpr (Or.inl known)⟩

theorem RegistrySound.run {service later : GameService}
    {calls : List RegistryCall} (sound : RegistrySound service)
    (run : Run RegistryStep service calls later) :
    RegistrySound later ∧
      ∀ team, service.Registered team → later.Registered team := by
  apply run.invariant (fun reached =>
    RegistrySound reached ∧
      ∀ team, service.Registered team → reached.Registered team)
  · exact ⟨sound, fun _ known => known⟩
  · rintro before call after ⟨reached, kept⟩ step
    rcases reached.step step with ⟨next, keeps⟩
    exact ⟨next, fun team known => keeps team (kept team known)⟩

/-- What a key of the registry opens, now and later. -/
structure Identifies (service : GameService) (team : RegisteredTeam) :
    Prop where
  key : ∀ apiKey, getCurrentTeam apiKey service = .ok team ↔
    apiKey = some team.apiKey
  id : GameEndpoints.getTeamInfo team.teamId service = .ok team
  name : service.getTeamByName team.teamName = some team
  alone : ∀ other, service.Registered other →
    other.teamId = team.teamId ∨ other.teamName = team.teamName ∨
        other.apiKey = team.apiKey →
      other = team

theorem RegistrySound.identifies {service : GameService}
    {team : RegisteredTeam} (sound : RegistrySound service)
    (registered : service.Registered team) : Identifies service team where
  key := by
    intro apiKey
    rw [sound.getCurrentTeam_iff]
    exact and_iff_right registered
  id := by
    rw [GameEndpoints.getTeamInfo, GameService.getTeamById, registered]
  name := by
    cases found : service.getTeamByName team.teamName with
    | none => exact absurd rfl (registered.ne_of_getTeamByName found)
    | some other =>
        have known := sound.registered_of_mem
          (List.mem_of_find?_eq_some found)
        have same : other.teamName = team.teamName := by
          simpa using List.find?_some found
        rw [sound.named other team known registered same]
  alone := by
    rintro other known (same | same | same)
    · exact eq_of_teamId known registered same
    · exact sound.named other team known registered same
    · exact sound.eq_of_apiKey known registered same

/--
A team which has been registered at any time of a run is found ever after
under its id, its name and its key; it is the only team with one of them,
and no other key finds it.
-/
theorem registered_identified {before after : List RegistryCall}
    {call : RegistryCall} {service reached later : GameService}
    {team : RegisteredTeam}
    (run : Run RegistryStep GameService.new before service)
    (registers :
      GameEndpoints.registerTeam call.registration call.token service =
        (.ok team, reached))
    (continues : Run RegistryStep service (call :: after) later) :
    Identifies later team := by
  have sound := (RegistrySound.new.run run).1
  rcases continues.first_step with ⟨middle, step, rest⟩
  have isReached : middle = reached := by
    rw [step.2, RegistryCall.execute, registers]
  rcases (sound.step step).1.run rest with ⟨soundLater, kept⟩
  apply soundLater.identifies
  apply kept
  rw [isReached]
  rcases registerTeam_cases call.registration call.token service with
    ⟨_, refused⟩ | ⟨_, registered⟩
  · cases registers.symm.trans refused
  · cases registers.symm.trans registered
    exact sound.registered_registerTeam.mpr (Or.inr rfl)

namespace Sample

/-- Two teams, and one which takes the name of the first. -/
def registrations : List RegistryCall :=
  [ ⟨⟨"Alpha", "market_maker", by decide, by decide⟩, "aaaa"⟩,
    ⟨⟨"Beta", "market_maker", by decide, by decide⟩, "bbbb"⟩,
    ⟨⟨"Alpha", "market_maker", by decide, by decide⟩, "cccc"⟩ ]

/-- The first of the two teams. -/
def alpha : RegisteredTeam where
  teamId := "TEAM_001"
  teamName := "Alpha"
  role := "market_maker"
  apiKey := "itg_aaaa"

end Sample

theorem registered_identified_alpha :
    Identifies
      (replay RegistryCall.execute GameService.new Sample.registrations)
      Sample.alpha :=
  registered_identified (.refl _) rfl (run_replay (by decide +kernel))

end InternTradingGame
