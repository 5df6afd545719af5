import ThreeXNode.Library.Texts
import ThreeXNode.MTProto.Manager

namespace ThreeXNode.MTProto
open Library

variable {isPrint : Char → Bool}

/-! ## What the manager knows of its processes -/

structure Kept (cur : Managed) : Prop where
  structural : cur.structuralFP = cur.inst.structuralFingerprint
  secrets : cur.secretsFP = cur.inst.secretsFingerprint
  config : cur.config = some (cur.inst.config cur.apiPort cur.apiToken)
  token : Renderable cur.apiToken

def AllKept (m : Manager) : Prop := ∀ (id : Nat) (cur : Managed), m.procs[id]? = some cur → Kept cur

/-- The instance can be rendered, and its fingerprints tell it from the one its process runs with. -/
def Told (m : Manager) (inst : Instance) : Prop :=
  Clean inst ∧ ∀ cur : Managed, m.procs[inst.id]? = some cur → cur.running = true →
    cur.inst.structuralFingerprint = inst.structuralFingerprint →
    cur.inst.settings = inst.settings ∧
      (cur.inst.secretsFingerprint = inst.secretsFingerprint → secretsPayload cur.inst = secretsPayload inst)

def Serves (isPrint : Char → Bool) (m : Manager) (inst : Instance) : Prop :=
  ∃ cur : Managed, m.procs[inst.id]? = some cur ∧ cur.config = some (inst.config cur.apiPort cur.apiToken) ∧
    (Toml.parse (renderConfig isPrint inst cur.apiPort cur.apiToken)).map readConfig =
      some (inst.config cur.apiPort cur.apiToken)

theorem lowerHex_shown : ∀ n < 16, 32 ≤ (lowerHex n).toNat ∧ (lowerHex n).toNat < 127 := by decide

theorem hexDigits_shown (width n : Nat) : ∀ c ∈ hexDigits width n, 32 ≤ c.toNat ∧ c.toNat < 127 := by
  induction width generalizing n with
  | zero => simp [hexDigits]
  | succ width ih =>
      intro c mem
      rw [hexDigits, List.mem_append, List.mem_singleton] at mem
      rcases mem with mem | rfl
      · exact ih _ c mem
      · exact lowerHex_shown _ (by omega)

theorem encodeToString_renderable (bytes : List (Fin 256)) : Renderable (encodeToString bytes) := by
  apply Shown.renderable
  intro c mem
  rw [encodeToString, String.toList_ofList] at mem
  obtain ⟨b, -, mem⟩ := List.mem_flatMap.mp mem
  exact hexDigits_shown 2 b c mem

theorem config_eq {inst inst' : Instance} (settings : inst'.settings = inst.settings)
    (secrets : secretsPayload inst' = secretsPayload inst) (apiPort : Nat) (apiToken : String) :
    inst'.config apiPort apiToken = inst.config apiPort apiToken := by
  rw [Instance.config, Instance.config, settings, secrets]

theorem AllKept.insert {m : Manager} (kept : AllKept m) {id : Nat} {cur : Managed} (own : Kept cur) :
    AllKept { m with procs := m.procs.insert id cur } := by
  intro other cur' here
  dsimp only at here
  rw [Std.ExtTreeMap.getElem?_insert] at here
  split at here
  · cases here
    exact own
  · exact kept other cur' here

theorem AllKept.forget {m : Manager} (kept : AllKept m) (id : Nat) : AllKept (m.forget id) := by
  intro other cur here
  rw [Manager.forget, Std.ExtTreeMap.getElem?_erase] at here
  split at here
  · cases here
  · exact kept other cur here

theorem newManaged_kept (hides : Hides isPrint) {inst : Instance} (clean : Clean inst) (apiPort : Nat) {apiToken : String}
    (token : Renderable apiToken) :
    Kept (Manager.newManaged inst apiPort apiToken (renderConfig isPrint inst apiPort apiToken)) := by
  have read := read_render apiPort hides clean token
  generalize renderConfig isPrint inst apiPort apiToken = file at read ⊢
  constructor
  · rfl
  · rfl
  · exact read
  · exact token

theorem startProcess_cases (m : Manager) (inst : Instance) (luck : Luck) :
    (m.startProcess isPrint inst luck).2 = false ∧ (m.startProcess isPrint inst luck).1.procs = m.procs ∨
    ∃ apiPort bytes, (m.startProcess isPrint inst luck).1.procs = m.procs.insert inst.id
      (Manager.newManaged inst apiPort (encodeToString bytes) (renderConfig isPrint inst apiPort (encodeToString bytes))) := by
  unfold Manager.startProcess
  cases luck.freePort with
  | none => exact .inl ⟨rfl, rfl⟩
  | some apiPort =>
      cases luck.random with
      | none => exact .inl ⟨rfl, rfl⟩
      | some bytes =>
          dsimp only
          by_cases failed : luck.write.isSome = true ∨ (!luck.start) = true
          · rw [if_pos failed]
            exact .inl ⟨rfl, rfl⟩
          · rw [if_neg failed]
            have written : luck.write = none := by
              rw [not_or, Bool.not_eq_true, Option.isSome_eq_false_iff, Option.isNone_iff_eq_none] at failed
              exact failed.1
            have file : (m.writeConfig isPrint inst apiPort (encodeToString bytes) luck.write).files inst.id =
                renderConfig isPrint inst apiPort (encodeToString bytes) := by
              rw [written]
              simp [Manager.writeConfig]
            refine .inr ⟨apiPort, bytes, ?_⟩
            dsimp only
            rw [file]
            rfl

theorem serves_of_kept (hides : Hides isPrint) {m : Manager} {inst : Instance} (clean : Clean inst) {cur : Managed}
    (here : m.procs[inst.id]? = some cur) (token : Renderable cur.apiToken)
    (config : cur.config = some (inst.config cur.apiPort cur.apiToken)) : Serves isPrint m inst :=
  ⟨cur, here, config, read_render _ hides clean token⟩

theorem startProcess_kept (hides : Hides isPrint) {m : Manager} (kept : AllKept m) {inst : Instance} (clean : Clean inst)
    (luck : Luck) : AllKept (m.startProcess isPrint inst luck).1 ∧
      ((m.startProcess isPrint inst luck).2 = true → Serves isPrint (m.startProcess isPrint inst luck).1 inst) := by
  rcases @startProcess_cases isPrint m inst luck with ⟨failed, same⟩ | ⟨apiPort, bytes, started⟩
  · constructor
    · intro id cur here
      rw [same] at here
      exact kept id cur here
    · intro ok
      rw [failed] at ok
      cases ok
  · have own := newManaged_kept hides clean apiPort (encodeToString_renderable bytes)
    constructor
    · intro id cur here
      rw [started, Std.ExtTreeMap.getElem?_insert] at here
      split at here
      · cases here
        exact own
      · exact kept id cur here
    · intro _
      apply serves_of_kept hides clean ?_ own.token own.config
      rw [started, Std.ExtTreeMap.getElem?_insert_self]

theorem ensureLocked_kept (hides : Hides isPrint) {m : Manager} (kept : AllKept m) {inst : Instance} (told : Told m inst)
    (luck : Luck) : AllKept (m.ensureLocked isPrint inst luck).1 ∧
      ((m.ensureLocked isPrint inst luck).2 = true → Serves isPrint (m.ensureLocked isPrint inst luck).1 inst) := by
  unfold Manager.ensureLocked
  cases here : m.procs[inst.id]? with
  | none => exact startProcess_kept hides kept told.1 luck
  | some cur =>
      have own := kept inst.id cur here
      have restarts := startProcess_kept hides (kept.forget inst.id) told.1 luck
      dsimp only
      unfold ensureActionFor
      by_cases down : (!cur.running) = true ∨ cur.structuralFP ≠ inst.structuralFingerprint
      · rw [if_pos down]
        exact restarts
      · rw [if_neg down]
        rw [not_or, not_not, Bool.not_eq_true, Bool.not_eq_false'] at down
        obtain ⟨settings, sameSecrets⟩ := told.2 cur here down.1 (own.structural.symm.trans down.2)
        by_cases moved : cur.secretsFP ≠ inst.secretsFingerprint
        · rw [if_pos moved]
          dsimp only
          by_cases failed : luck.rewrite.isSome = true
          · rw [if_pos failed]
            exact ⟨kept, fun ok => absurd ok Bool.false_ne_true⟩
          · rw [if_neg failed]
            -- The process keeps its settings, which are those of the instance, and takes its secrets.
            unfold Manager.applySecrets
            rw [own.config]
            dsimp only
            by_cases applied : luck.applied = true ∧ cur.running = true
            · rw [if_pos applied]
              have now : some ({ cur.inst.config cur.apiPort cur.apiToken with secrets := secretsPayload inst } : Config) =
                  some (inst.config cur.apiPort cur.apiToken) := by
                rw [Instance.config, Instance.config, settings]
              constructor
              · apply AllKept.insert (m := m.writeConfig isPrint inst cur.apiPort cur.apiToken luck.rewrite) kept
                exact ⟨down.2, rfl, now, own.token⟩
              · intro _
                exact serves_of_kept hides told.1 Std.ExtTreeMap.getElem?_insert_self own.token now
            · rw [if_neg applied]
              exact startProcess_kept hides
                (AllKept.forget (m := m.writeConfig isPrint inst cur.apiPort cur.apiToken luck.rewrite) kept inst.id) told.1 luck
        · rw [if_neg moved]
          dsimp only
          have secrets := sameSecrets (own.secrets.symm.trans (not_not.mp moved))
          constructor
          · exact kept.insert ⟨own.structural, own.secrets, own.config, own.token⟩
          · intro _
            refine ⟨{ cur with tag := inst.tag }, Std.ExtTreeMap.getElem?_insert_self, ?_,
              read_render _ hides told.1 own.token⟩
            exact own.config.trans (congrArg some (config_eq settings secrets _ _))

/-- A call of `Ensure` finds its instance told from the one its process runs with. -/
def Clear (m : Manager) : Action → Prop
  | .ensure inst _ => Told m inst
  | _ => True

theorem step_kept (hides : Hides isPrint) {m t : Manager} {a : Action} (kept : AllKept m) (clear : Clear m a)
    (step : (manager isPrint).next m a = some t) : AllKept t := by
  cases a with
  | ensure inst luck =>
      cases step
      exact (ensureLocked_kept hides kept clear luck).1
  | remove id =>
      cases step
      unfold Manager.remove
      split
      · exact kept.forget id
      · exact kept
  | crash id =>
      cases step
      unfold Manager.crash
      cases here : m.procs[id]? with
      | none => exact kept
      | some cur =>
          have own := kept id cur here
          exact kept.insert ⟨own.structural, own.secrets, own.config, own.token⟩

/-! ## Fingerprints that tell instances apart -/

/-- No text of the instance holds a mark that the fingerprints put between the texts. -/
structure Unmarked (inst : Instance) : Prop where
  bindTo : '|' ∉ inst.bindTo.toList
  preferIP : '|' ∉ inst.preferIP.toList
  frontingIP : '|' ∉ inst.frontingIP.toList
  publicIPv4 : '|' ∉ inst.publicIPv4.toList
  publicIPv6 : '|' ∉ inst.publicIPv6.toList
  names : ∀ e ∈ inst.secrets, '|' ∉ e.name.toList ∧ '=' ∉ e.name.toList
  secrets : ∀ e ∈ inst.secrets, '|' ∉ e.secret.toList ∧ ';' ∉ e.secret.toList
  adTags : ∀ e ∈ inst.secrets, '|' ∉ e.adTag.toList ∧ ';' ∉ e.adTag.toList

theorem not_mem_int {c : Char} (other : c ≠ '-' ∧ c.isDigit = false) (n : Int) : c ∉ (toString n).toList := by
  intro mem
  rcases mem_toString_int mem with same | digit
  · exact other.1 same
  · rw [other.2] at digit
    cases digit

theorem not_mem_bool (b : Bool) : '|' ∉ (toString b).toList := by
  cases b <;> decide

def structuralParts (inst : Instance) : List String :=
  [inst.bindTo, toString inst.debug, toString inst.proxyProtocolListener, inst.preferIP, inst.frontingIP,
    toString inst.frontingPort, toString inst.frontingProxyProtocol, toString inst.throttleMaxConnections,
    toString inst.routeThroughXray, toString inst.xrayRoutePort, inst.publicIPv4, inst.publicIPv6]

theorem structuralParts_unmarked {inst : Instance} (plain : Unmarked inst) : ∀ p ∈ structuralParts inst, '|' ∉ p.toList := by
  have number := not_mem_int (c := '|') (by decide)
  simp only [structuralParts, List.forall_mem_cons]
  exact ⟨plain.bindTo, not_mem_bool _, not_mem_bool _, plain.preferIP, plain.frontingIP, number _, not_mem_bool _, number _,
    not_mem_bool _, number _, plain.publicIPv4, plain.publicIPv6, by simp⟩

theorem settings_of_fingerprint {inst inst' : Instance} (plain : Unmarked inst) (plain' : Unmarked inst')
    (same : inst.structuralFingerprint = inst'.structuralFingerprint) : inst.settings = inst'.settings := by
  have parts : structuralParts inst = structuralParts inst' :=
    intercalate_inj (structuralParts_unmarked plain) (structuralParts_unmarked plain') (List.cons_ne_nil _ _)
      (List.cons_ne_nil _ _) same
  simp only [structuralParts, List.cons.injEq, and_true] at parts
  obtain ⟨bindTo, debug, listener, preferIP, host, port, fronting, throttle, route, xray, ipv4, ipv6⟩ := parts
  simp only [Instance.settings, Settings.mk.injEq]
  rw [bindTo, toString_bool_inj debug, toString_bool_inj listener, preferIP, host, toString_int_inj port,
    toString_bool_inj fronting, toString_int_inj throttle, toString_bool_inj route, toString_int_inj xray, ipv4, ipv6]
  simp

theorem secretPair_toList (e : SecretEntry) :
    (Instance.secretPair e).toList =
      e.name.toList ++ '=' :: (e.secret.toList ++ ';' :: ("tag=".toList ++ e.adTag.toList ++ ';' ::
        ("q=".toList ++ (toString e.quotaBytes).toList ++ ';' :: ("exp=".toList ++ (toString e.expiresUnix).toList)))) := by
  simp [Instance.secretPair]

theorem secretPair_inj {e e' : SecretEntry} (name : '=' ∉ e.name.toList) (name' : '=' ∉ e'.name.toList)
    (secret : ';' ∉ e.secret.toList) (secret' : ';' ∉ e'.secret.toList) (adTag : ';' ∉ e.adTag.toList)
    (adTag' : ';' ∉ e'.adTag.toList) (same : Instance.secretPair e = Instance.secretPair e') : e = e' := by
  have number := not_mem_int (c := ';') (by decide)
  have behind : ∀ (lead s : List Char), ';' ∉ lead → ';' ∉ s → ';' ∉ lead ++ s := fun lead s free free' mem =>
    (List.mem_append.mp mem).elim free free'
  have chars := congrArg String.toList same
  rw [secretPair_toList, secretPair_toList] at chars
  obtain ⟨names, chars⟩ := cut_inj name name' chars
  obtain ⟨secrets, chars⟩ := cut_inj secret secret' chars
  obtain ⟨tags, chars⟩ := cut_inj (behind _ _ (by decide) adTag) (behind _ _ (by decide) adTag') chars
  obtain ⟨quotas, ends⟩ := cut_inj (behind _ _ (by decide) (number _)) (behind _ _ (by decide) (number _)) chars
  obtain ⟨n, s, t, q, x⟩ := e
  obtain ⟨n', s', t', q', x'⟩ := e'
  have tags := String.toList_inj.mp (List.append_cancel_left tags)
  have quotas := toString_int_inj (String.toList_inj.mp (List.append_cancel_left quotas))
  have ends := toString_int_inj (String.toList_inj.mp (List.append_cancel_left ends))
  simp only [SecretEntry.mk.injEq]
  exact ⟨String.toList_inj.mp names, String.toList_inj.mp secrets, tags, quotas, ends⟩

theorem secretPair_unmarked {inst : Instance} (plain : Unmarked inst) :
    ∀ p ∈ inst.secrets.map Instance.secretPair, '|' ∉ p.toList := by
  intro p mem
  obtain ⟨e, here, rfl⟩ := List.mem_map.mp mem
  have number := not_mem_int (c := '|') (by decide)
  rw [secretPair_toList]
  apply List.not_mem_append (plain.names e here).1
  apply List.not_mem_cons_of_ne_of_not_mem (by decide)
  apply List.not_mem_append (plain.secrets e here).1
  apply List.not_mem_cons_of_ne_of_not_mem (by decide)
  apply List.not_mem_append (List.not_mem_append (by decide) (plain.adTags e here).1)
  apply List.not_mem_cons_of_ne_of_not_mem (by decide)
  apply List.not_mem_append (List.not_mem_append (by decide) (number _))
  apply List.not_mem_cons_of_ne_of_not_mem (by decide)
  exact List.not_mem_append (by decide) (number _)

theorem payload_perm {inst inst' : Instance} (distinct : (inst.secrets.map (·.name)).Nodup)
    (same : inst.secrets.Perm inst'.secrets) : secretsPayload inst = secretsPayload inst' := by
  unfold secretsPayload
  apply same.foldl_eq'
  intro e mem e' mem' set
  by_cases equal : e = e'
  · rw [equal]
  · have other : e.name ≠ e'.name := fun names => equal (List.inj_on_of_nodup_map distinct mem mem' names)
    apply Std.ExtTreeMap.ext_getElem?
    intro key
    simp only [Std.ExtTreeMap.getElem?_insert, Std.compare_eq_iff_eq]
    by_cases first : e.name = key <;> by_cases second : e'.name = key <;> simp [first, second]
    exact absurd (first.trans second.symm) other

theorem secrets_of_fingerprint {inst inst' : Instance} (plain : Unmarked inst) (plain' : Unmarked inst')
    (some : inst.secrets ≠ []) (some' : inst'.secrets ≠ []) (distinct : (inst.secrets.map (·.name)).Nodup)
    (same : inst.secretsFingerprint = inst'.secretsFingerprint) : secretsPayload inst = secretsPayload inst' := by
  apply payload_perm distinct
  have order := fun es : List SecretEntry => List.perm_insertionSort (· ≤ ·) (es.map Instance.secretPair)
  have nonempty : ∀ es : List SecretEntry, es ≠ [] → (es.map Instance.secretPair).insertionSort (· ≤ ·) ≠ [] := by
    intro es some empty
    have length := (order es).length_eq
    rw [empty, List.length_map] at length
    exact some (List.length_eq_zero_iff.mp length.symm)
  have sorted : (inst.secrets.map Instance.secretPair).insertionSort (· ≤ ·) =
      (inst'.secrets.map Instance.secretPair).insertionSort (· ≤ ·) := by
    apply intercalate_inj (c := '|') ?_ ?_ (nonempty _ some) (nonempty _ some') same
    · exact fun p mem => secretPair_unmarked plain p ((order _).mem_iff.mp mem)
    · exact fun p mem => secretPair_unmarked plain' p ((order _).mem_iff.mp mem)
  have pairs : (inst.secrets.map Instance.secretPair).Perm (inst'.secrets.map Instance.secretPair) :=
    (order _).symm.trans (sorted ▸ order _)
  -- Among the entries of the two instances the pairs are injective, so they can be read back.
  let entries : Set SecretEntry := {e | e ∈ inst.secrets ∨ e ∈ inst'.secrets}
  have clear : ∀ e ∈ entries, '=' ∉ e.name.toList ∧ ';' ∉ e.secret.toList ∧ ';' ∉ e.adTag.toList := by
    rintro e (mem | mem)
    · exact ⟨(plain.names e mem).2, (plain.secrets e mem).2, (plain.adTags e mem).2⟩
    · exact ⟨(plain'.names e mem).2, (plain'.secrets e mem).2, (plain'.adTags e mem).2⟩
  have inj : Set.InjOn Instance.secretPair entries := by
    intro e mem e' mem' same
    obtain ⟨name, secret, tag⟩ := clear e mem
    obtain ⟨name', secret', tag'⟩ := clear e' mem'
    exact secretPair_inj name name' secret secret' tag tag' same
  have : Nonempty SecretEntry := ⟨inst.secrets.head some⟩
  let back := Function.invFunOn Instance.secretPair entries
  have read : ∀ es : List SecretEntry, (∀ e ∈ es, e ∈ entries) → (es.map Instance.secretPair).map back = es := by
    intro es part
    rw [List.map_map]
    exact (List.map_congr_left fun e mem => inj.leftInvOn_invFunOn (part e mem)).trans (List.map_id es)
  have result := pairs.map back
  rwa [read _ fun e mem => .inl mem, read _ fun e mem => .inr mem] at result

theorem told_of_unmarked {m : Manager} {inst : Instance} (clean : Clean inst) (plain : Unmarked inst)
    (some : inst.secrets ≠ [])
    (before : ∀ cur : Managed, m.procs[inst.id]? = .some cur → Unmarked cur.inst ∧ Clean cur.inst ∧ cur.inst.secrets ≠ []) :
    Told m inst := by
  refine ⟨clean, fun cur here _ same => ?_⟩
  obtain ⟨plain', clean', some'⟩ := before cur here
  exact ⟨settings_of_fingerprint plain' plain same,
    fun secrets => secrets_of_fingerprint plain' plain some' some clean'.distinct secrets⟩

structure Fit (inst : Instance) : Prop where
  clean : Clean inst
  unmarked : Unmarked inst
  secrets : inst.secrets ≠ []

def FitAction : Action → Prop
  | .ensure inst _ => Fit inst
  | _ => True

theorem startProcess_fit {m : Manager} (fit : ∀ (id : Nat) (cur : Managed), m.procs[id]? = some cur → Fit cur.inst)
    {inst : Instance} (own : Fit inst) (luck : Luck) (id : Nat) (cur : Managed)
    (here : (m.startProcess isPrint inst luck).1.procs[id]? = some cur) : Fit cur.inst := by
  rcases @startProcess_cases isPrint m inst luck with ⟨-, same⟩ | ⟨apiPort, bytes, started⟩
  · rw [same] at here
    exact fit id cur here
  · rw [started, Std.ExtTreeMap.getElem?_insert] at here
    split at here
    · cases here
      exact own
    · exact fit id cur here

theorem ensureLocked_fit {m : Manager} (fit : ∀ (id : Nat) (cur : Managed), m.procs[id]? = some cur → Fit cur.inst)
    {inst : Instance} (own : Fit inst) (luck : Luck) (id : Nat) (cur : Managed)
    (here : (m.ensureLocked isPrint inst luck).1.procs[id]? = some cur) : Fit cur.inst := by
  have forgets : ∀ m' : Manager, m'.procs = m.procs → ∀ (id : Nat) (cur : Managed),
      (m'.forget inst.id).procs[id]? = some cur → Fit cur.inst := by
    intro m' same id cur here
    rw [Manager.forget, Std.ExtTreeMap.getElem?_erase, same] at here
    split at here
    · cases here
    · exact fit id cur here
  have inserts : ∀ (new : Managed), Fit new.inst → (m.procs.insert inst.id new)[id]? = some cur → Fit cur.inst := by
    intro new ok here
    rw [Std.ExtTreeMap.getElem?_insert] at here
    split at here
    · cases here
      exact ok
    · exact fit id cur here
  unfold Manager.ensureLocked at here
  cases known : m.procs[inst.id]? with
  | none =>
      rw [known] at here
      exact startProcess_fit fit own luck id cur here
  | some old =>
      rw [known] at here
      dsimp only at here
      split at here
      · exact inserts { old with tag := inst.tag } (fit _ old known) here
      · split at here
        · exact fit id cur here
        · split at here
          · rename_i new _
            exact inserts { new with tag := inst.tag, secretsFP := inst.secretsFingerprint, inst := inst } own here
          · exact startProcess_fit (forgets (m.writeConfig isPrint inst old.apiPort old.apiToken luck.rewrite) rfl) own luck id cur here
      · exact startProcess_fit (forgets m rfl) own luck id cur here

theorem fit_run {m : Manager} (run : (manager isPrint).Path (fun _ a => FitAction a) {} m) :
    (manager isPrint).Path Clear {} m ∧ ∀ (id : Nat) (cur : Managed), m.procs[id]? = some cur → Fit cur.inst := by
  induction run with
  | refl => exact ⟨.refl, fun id cur here => by simp at here⟩
  | @tail t u a front good step ih =>
      obtain ⟨clear, fit⟩ := ih
      cases a with
      | ensure inst luck =>
          have told : Told t inst := told_of_unmarked good.clean good.unmarked good.secrets fun cur here =>
            ⟨(fit _ cur here).unmarked, (fit _ cur here).clean, (fit _ cur here).secrets⟩
          have ok : Clear t (.ensure inst luck) := told
          refine ⟨clear.tail ok step, ?_⟩
          cases step
          exact ensureLocked_fit fit good luck
      | remove id =>
          have ok : Clear t (.remove id) := trivial
          refine ⟨clear.tail ok step, fun other cur here => ?_⟩
          cases step
          unfold Manager.remove at here
          split at here
          · rw [Manager.forget, Std.ExtTreeMap.getElem?_erase] at here
            split at here
            · cases here
            · exact fit other cur here
          · exact fit other cur here
      | crash id =>
          have ok : Clear t (.crash id) := trivial
          refine ⟨clear.tail ok step, fun other cur here => ?_⟩
          cases step
          unfold Manager.crash at here
          cases known : t.procs[id]? with
          | none =>
              rw [known] at here
              exact fit other cur here
          | some old =>
              rw [known] at here
              dsimp only at here
              rw [Std.ExtTreeMap.getElem?_insert] at here
              split at here
              · cases here
                exact fit id old known
              · exact fit other cur here

def reconcileActions (m : Manager) (desired : List (Instance × Luck)) : List Action :=
  ((m.procs.keys.filter fun id => id ∉ desired.map (·.1.id)).map .remove) ++
    desired.map fun (inst, luck) => .ensure inst luck

theorem run_reconcile (m : Manager) (desired : List (Instance × Luck)) :
    (manager isPrint).run m (reconcileActions m desired) = some (m.reconcile isPrint desired) := by
  have removes : ∀ (ids : List Nat) (m : Manager),
      (manager isPrint).run m (ids.map .remove) = some (ids.foldl Manager.remove m) := by
    intro ids
    induction ids with
    | nil => exact fun _ => rfl
    | cons id ids ih => exact fun m => ih (m.remove id)
  have ensures : ∀ (desired : List (Instance × Luck)) (m : Manager),
      (manager isPrint).run m (desired.map fun (inst, luck) => .ensure inst luck) =
        some (desired.foldl (fun m (inst, luck) => (m.ensureLocked isPrint inst luck).1) m) := by
    intro desired
    induction desired with
    | nil => exact fun _ => rfl
    | cons first desired ih => exact fun m => ih (m.ensureLocked isPrint first.1 first.2).1
  rw [reconcileActions, System.run_append, removes, Option.bind_some, ensures]
  rfl

/-! ## What the sidecar serves -/

/-- In runs whose every `Ensure` is told from what its process runs with, a call that succeeds leaves its instance served. -/
theorem sidecar_serves (hides : Hides isPrint) (m : Manager) (inst : Instance) (luck : Luck)
    (run : (manager isPrint).Path Clear {} m) (told : Told m inst)
    (ok : (m.ensureLocked isPrint inst luck).2 = true) : Serves isPrint (m.ensureLocked isPrint inst luck).1 inst := by
  have kept : AllKept m := run.invariant AllKept (fun id cur here => by simp at here)
    fun t a u kept clear step => step_kept hides kept clear step
  exact (ensureLocked_kept hides kept told luck).2 ok


/-! ## Two inbounds with the same fingerprints -/

def asciiPrint (c : Char) : Bool := 32 ≤ c.toNat && c.toNat < 127

theorem asciiPrint_hides : Hides asciiPrint := by
  intro c control
  rw [asciiPrint, Bool.and_eq_false_iff, decide_eq_false_iff_not, decide_eq_false_iff_not]
  omega

def tunnelled (clients : List (String × String)) : Panel.Inbound where
  id := 1
  nodeId := none
  originNodeGuid := ""
  tag := "mt"
  listen := ""
  port := 443
  protocol := .mtproto
  settings := Json.asFields (.obj [("clients", .arr (clients.map fun (email, secret) =>
    .obj [("email", .str email), ("secret", .str secret), ("enable", .bool true)]))])
  streamSettings := none
  sniffing := ""
  trafficReset := "never"
  trafficResetDay := 0
  lastTrafficResetTime := 0
  enable := true
  remark := ""
  subSortIndex := 0
  total := 0
  expiryTime := 0
  up := 0
  down := 0
  disableFlow := false
  clientStats := []

def firstSecret : String := "ee00112233445566778899aabbccddeeff6578616d706c652e636f6d"

def secondSecret : String := "eeffeeddccbbaa998877665544332211006578616d706c652e636f6d"

def forged : List (String × String) := [("a=" ++ firstSecret ++ ";tag=;q=0;exp=0|b", secondSecret)]

def honest : List (String × String) := [("a", firstSecret), ("b", secondSecret)]

def servedInstance (clients : List (String × String)) : Instance where
  id := 1
  tag := "mt"
  listen := ""
  port := 443
  secrets := clients.map fun (email, secret) =>
    { name := email, secret := secret, adTag := "", quotaBytes := 0, expiresUnix := 0 }
  debug := false
  proxyProtocolListener := false
  preferIP := ""
  frontingIP := ""
  frontingPort := 0
  frontingProxyProtocol := false
  throttleMaxConnections := 0
  publicIPv4 := ""
  publicIPv6 := ""
  routeThroughXray := false
  xrayRoutePort := 0

def lucky : Luck where
  rewrite := none
  applied := true
  freePort := some 40000
  random := some (List.replicate 16 7)
  write := none
  start := true

def launched (inst : Instance) : Managed :=
  let apiToken := encodeToString (List.replicate 16 7)
  Manager.newManaged inst 40000 apiToken (renderConfig asciiPrint inst 40000 apiToken)

theorem launched_config {inst : Instance} (clean : Clean inst) :
    (launched inst).config = some (inst.config 40000 (encodeToString (List.replicate 16 7))) :=
  (newManaged_kept asciiPrint_hides clean 40000 (encodeToString_renderable (List.replicate 16 7))).config

theorem ensureLocked_launched (inst : Instance) :
    (({} : Manager).ensureLocked asciiPrint inst lucky).2 = true ∧
      (({} : Manager).ensureLocked asciiPrint inst lucky).1.procs[inst.id]? = some (launched inst) := by
  have fresh : ({} : Manager).ensureLocked asciiPrint inst lucky = ({} : Manager).startProcess asciiPrint inst lucky := by
    simp [Manager.ensureLocked]
  rw [fresh]
  constructor
  · rfl
  · show (Std.ExtTreeMap.insert _ _ _)[inst.id]? = _
    rw [Std.ExtTreeMap.getElem?_insert_self]
    simp [Manager.writeConfig, lucky, launched]

theorem clean_of_shown {inst : Instance} (texts : ([inst.bindTo, inst.preferIP, inst.frontingIP, inst.publicIPv4,
    inst.publicIPv6] ++ inst.secrets.flatMap fun e => [e.name, e.secret, e.adTag]).all (·.toList.all asciiPrint) = true)
    (distinct : (inst.secrets.map (·.name)).Nodup) : Clean inst := by
  have read : ∀ s ∈ [inst.bindTo, inst.preferIP, inst.frontingIP, inst.publicIPv4, inst.publicIPv6] ++
      inst.secrets.flatMap fun e => [e.name, e.secret, e.adTag], Renderable s := by
    intro s mem
    apply Shown.renderable
    intro c char
    have shown := List.all_eq_true.mp (List.all_eq_true.mp texts s mem) c char
    rwa [asciiPrint, Bool.and_eq_true, decide_eq_true_eq, decide_eq_true_eq] at shown
  have inside : ∀ e ∈ inst.secrets, Renderable e.name ∧ Renderable e.secret ∧ Renderable e.adTag := by
    intro e mem
    have own : ∀ s ∈ [e.name, e.secret, e.adTag], Renderable s := fun s here =>
      read s (List.mem_append_right _ (List.mem_flatMap.mpr ⟨e, mem, here⟩))
    exact ⟨own _ (by simp), own _ (by simp), own _ (by simp)⟩
  exact {
    bindTo := read _ (by simp)
    preferIP := read _ (by simp)
    frontingIP := read _ (by simp)
    publicIPv4 := read _ (by simp)
    publicIPv6 := read _ (by simp)
    names := fun e mem => (inside e mem).1
    secrets := fun e mem => (inside e mem).2.1
    adTags := fun e mem => (inside e mem).2.2
    distinct := distinct }

theorem forged_clean : Clean (servedInstance forged) := by
  apply clean_of_shown <;> decide +kernel

theorem honest_clean : Clean (servedInstance honest) := by
  apply clean_of_shown <;> decide +kernel

def afterForged : Manager := (({} : Manager).ensureLocked asciiPrint (servedInstance forged) lucky).1

theorem sidecar_serves_forged :
    Serves asciiPrint (({} : Manager).ensureLocked asciiPrint (servedInstance forged) lucky).1 (servedInstance forged) := by
  apply sidecar_serves asciiPrint_hides {} (servedInstance forged) lucky .refl
  · exact ⟨forged_clean, fun cur here => by simp at here⟩
  · exact (ensureLocked_launched _).1

/-- An email can hold the marks that the fingerprint of the secrets puts between two entries: the second call finds
nothing to do and leaves the process with the secret of the first. -/
theorem sidecar_keeps_forged :
    instanceFromInbound (tunnelled forged) = some (servedInstance forged) ∧
    instanceFromInbound (tunnelled honest) = some (servedInstance honest) ∧ Clean (servedInstance honest) ∧
    (afterForged.ensureLocked asciiPrint (servedInstance honest) lucky).2 = true ∧
    ¬Serves asciiPrint (afterForged.ensureLocked asciiPrint (servedInstance honest) lucky).1 (servedInstance honest) := by
  refine ⟨by decide +kernel, by decide +kernel, honest_clean, ?_⟩
  have started := (ensureLocked_launched (servedInstance forged)).2
  have own := launched_config forged_clean
  have same : (launched (servedInstance forged)).structuralFP = (servedInstance honest).structuralFingerprint ∧
      (launched (servedInstance forged)).secretsFP = (servedInstance honest).secretsFingerprint := by
    constructor
    · show (servedInstance forged).structuralFingerprint = _
      decide +kernel
    · show (servedInstance forged).secretsFingerprint = _
      decide +kernel
  have idle : afterForged.ensureLocked asciiPrint (servedInstance honest) lucky =
      ({ afterForged with procs := afterForged.procs.insert 1 { launched (servedInstance forged) with tag := "mt" } }, true) := by
    unfold Manager.ensureLocked
    rw [show afterForged.procs[(servedInstance honest).id]? = some (launched (servedInstance forged)) from started]
    dsimp only
    unfold ensureActionFor
    rw [same.1, same.2]
    simp [launched, Manager.newManaged, servedInstance]
  rw [idle]
  refine ⟨rfl, ?_⟩
  rintro ⟨cur, here, config, -⟩
  generalize launched (servedInstance forged) = old at own here
  have now : { old with tag := "mt" } = cur :=
    Option.some.inj ((Std.ExtTreeMap.getElem?_insert_self).symm.trans here)
  rw [← now] at config
  have payload : secretsPayload (servedInstance forged) = secretsPayload (servedInstance honest) :=
    congrArg Config.secrets (Option.some.inj (own.symm.trans config))
  have size := congrArg Std.ExtTreeMap.size payload
  revert size
  decide +kernel

end ThreeXNode.MTProto
