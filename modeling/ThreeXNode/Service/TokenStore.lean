import ThreeXNode.Service.NodeTokens

namespace ThreeXNode.Service.NodeTokens
open Library

/-! # Nodes, updates of them and migrations of their tokens -/

def Codec.Sound : Codec → Prop
  | .off => True
  | .on ring => ring.Sound

abbrev Loaded := {codec : Codec // codec.Sound}

abbrev Nonce := {nonce : List UInt8 // nonce.length = nonceLen}

theorem newCodec_sound {mode : Mode} {ring : Keyring} {codec : Codec} (sound : ring.Sound)
    (made : newCodec mode ring = .ok codec) : codec.Sound := by
  unfold newCodec at made
  split at made
  · cases made
    trivial
  · split at made
    · cases made
    · split at made
      · cases made
        exact sound
      · cases made

structure NodeRow where
  id : Nat
  apiToken : Text
  plain : Text
  /-- The active key of the process that sealed the text; none if it was stored as it was given. -/
  writer : Option Text
  written : Nat

structure PendingUpdate where
  id : Nat
  apiToken : Text
  plain : Text
  writer : Option Text

structure Sweep where
  ring : {ring : Keyring // ring.Sound}
  todo : List (Nat × Text)
  changed : Nat
  skipped : Nat
  failed : Option TokenError

structure World where
  rows : List NodeRow
  nextId : Nat
  pending : List PendingUpdate
  sweeps : List Sweep
  clock : Nat

structure Request where
  apiToken : Option Text
  clearApiToken : Bool
  enable : Bool
  mtls : Bool

def Request.validateCredentials (r : Request) (create : Bool) : Except String Request := do
  if r.apiToken.isSome ∧ r.clearApiToken then .error "apiToken and clearApiToken are mutually exclusive"
  else
    let apiToken := r.apiToken.map Ports.trimSpace
    if apiToken = some [] ∧ create then .error "apiToken is required unless mtls is enabled"
    else
      let apiToken := apiToken.filter (· ≠ [])
      if create ∧ r.clearApiToken then .error "credentials cannot be cleared while creating a node"
      else if create ∧ apiToken = none ∧ !r.mtls then .error "apiToken is required unless mtls is enabled"
      else if r.clearApiToken ∧ r.enable ∧ !r.mtls then
        .error "disable the node or enable mtls before clearing its apiToken"
      else return { r with apiToken := apiToken }

section Operations

variable (gcm : Cipher)

def Codec.active? : Codec → Option Text
  | .off => none
  | .on ring => some ring.activeID

/-- What a submitted text means: a ciphertext of the node is taken for what it hides. -/
def Codec.means (codec : Codec) (nodeID : Nat) (token : Text) : Text :=
  (codec.decrypt gcm nodeID token).toOption.getD token

def writerOf (codec : Codec) (token : Text) : Option Text := if isEncrypted token then none else codec.active?

def create (w : World) (codec : Codec) (nonce : List UInt8) (token : Text) : Except TokenError World :=
  match codec with
  | .off => .ok { w with rows := w.rows ++ [⟨w.nextId, token, token, none, w.clock⟩], nextId := w.nextId + 1 }
  | .on ring => do
      let enc ← Codec.encrypt gcm (.on ring) nonce w.nextId token
      -- the row is inserted without a token, and rewritten only where the ciphertext differs from the text
      let stored := if enc = token then [] else enc
      return { w with
        rows := w.rows ++ [⟨w.nextId, stored, token, writerOf (.on ring) token, w.clock⟩]
        nextId := w.nextId + 1 }

def createFromRequest (w : World) (codec : Codec) (nonce : List UInt8) (r : Request) : World :=
  match r.validateCredentials true with
  | .error _ => w
  | .ok r => ((create gcm w codec nonce (r.apiToken.getD [])).toOption).getD w

def startUpdate (w : World) (codec : Codec) (nonce : List UInt8) (id : Nat) (r : Request) : World :=
  match r.validateCredentials false, w.rows.find? (·.id = id) with
  | .ok r, some existing =>
      let written : Except TokenError PendingUpdate :=
        if r.clearApiToken then .ok ⟨id, [], [], codec.active?⟩
        else match r.apiToken with
          | some token => (codec.encrypt gcm nonce id token).map fun enc =>
              ⟨id, enc, codec.means gcm id token, writerOf codec token⟩
          | none => .ok ⟨id, existing.apiToken, existing.plain, existing.writer⟩
      match written with
      | .error _ => w
      | .ok update =>
          if update.apiToken = [] ∧ r.enable ∧ !r.mtls then w else { w with pending := w.pending ++ [update] }
  | _, _ => w

def finishUpdate (w : World) (i : Nat) : World :=
  match w.pending[i]? with
  | none => w
  | some update =>
      { w with
        pending := w.pending.eraseIdx i
        rows := w.rows.map fun row =>
          if row.id = update.id then
            { row with apiToken := update.apiToken, plain := update.plain, writer := update.writer, written := w.clock }
          else row }

def deleteNode (w : World) (id : Nat) : World := { w with rows := w.rows.filter (·.id ≠ id) }

def startSweep (w : World) (codec : Loaded) : World :=
  match codec with
  | ⟨.off, _⟩ => w
  | ⟨.on ring, sound⟩ =>
      { w with sweeps := w.sweeps ++ [⟨⟨ring, sound⟩, w.rows.map fun row => (row.id, row.apiToken), 0, 0, none⟩] }

/-- What a migration does about one node: nothing, or a compare-and-swap. -/
def sweepNode (ring : Keyring) (nonce : List UInt8) (id : Nat) (old : Text) : Except TokenError (Option Text) :=
  if old = [] then .ok none
  else if Codec.encryptedWithActive (.on ring) old then do
    let _ ← Codec.decrypt gcm (.on ring) id old
    return none
  else do
    let plain ← Codec.decrypt gcm (.on ring) id old
    let enc ← Codec.encrypt gcm (.on ring) nonce id plain
    return some enc

def swapToken (w : World) (ring : Keyring) (id : Nat) (old enc : Text) : List NodeRow :=
  w.rows.map fun row =>
    if row.id = id ∧ row.apiToken = old then
      { row with apiToken := enc, writer := some ring.activeID, written := w.clock }
    else row

def sweepRow (w : World) (i : Nat) (nonce : List UInt8) : World :=
  match w.sweeps[i]? with
  | none => w
  | some sweep =>
      if sweep.failed.isSome then w
      else match sweep.todo with
      | [] => w
      | (id, old) :: todo =>
          match sweepNode gcm sweep.ring.val nonce id old with
          | .error cause => { w with sweeps := w.sweeps.set i { sweep with failed := some cause } }
          | .ok none => { w with sweeps := w.sweeps.set i { sweep with todo := todo, skipped := sweep.skipped + 1 } }
          | .ok (some enc) =>
              if w.rows.any fun row => row.id = id ∧ row.apiToken = old then
                { w with
                  rows := swapToken w sweep.ring.val id old enc
                  sweeps := w.sweeps.set i { sweep with todo := todo, changed := sweep.changed + 1 } }
              else { w with sweeps := w.sweeps.set i { sweep with todo := todo, skipped := sweep.skipped + 1 } }

/-- The panel and the migrations are processes with codecs of their own. -/
inductive Action where
  | create (codec : Loaded) (nonce : Nonce) (r : Request)
  | startUpdate (codec : Loaded) (nonce : Nonce) (id : Nat) (r : Request)
  | finishUpdate (i : Nat)
  | delete (id : Nat)
  | startSweep (codec : Loaded)
  | sweepRow (i : Nat) (nonce : Nonce)

def Action.run (w : World) : Action → World
  | .create codec nonce r => createFromRequest gcm w codec.val nonce.val r
  | .startUpdate codec nonce id r => NodeTokens.startUpdate gcm w codec.val nonce.val id r
  | .finishUpdate i => NodeTokens.finishUpdate w i
  | .delete id => deleteNode w id
  | .startSweep codec => NodeTokens.startSweep w codec
  | .sweepRow i nonce => NodeTokens.sweepRow gcm w i nonce.val

def step (w : World) (a : Action) : World := { a.run gcm w with clock := w.clock + 1 }

end Operations

/-! ## What every value at rest hides -/

def Codec.Part (whole : Keyring) : Codec → Prop
  | .off => True
  | .on ring => ring.Part whole

/-- Nothing to read, or readable with one key. -/
def Settled (keyID stored : Text) : Prop := stored = [] ∨ Codec.encryptedWithActive (.on ⟨keyID, []⟩) stored = true

section Kept

variable (gcm : Cipher) (whole : Keyring)

/-- A value at rest, the token it hides, and the key its writer sealed it with. -/
structure Hides (id : Nat) (stored plain : Text) (writer : Option Text) : Prop where
  reads : Codec.decrypt gcm (.on whole) id stored = .ok plain
  clear : isEncrypted plain = false
  settled : ∀ keyID, writer = some keyID → Settled keyID stored

structure Kept (w : World) : Prop where
  rows : ∀ row ∈ w.rows, Hides gcm whole row.id row.apiToken row.plain row.writer
  pending : ∀ update ∈ w.pending, Hides gcm whole update.id update.apiToken update.plain update.writer
  sweeps : ∀ sweep ∈ w.sweeps, sweep.ring.val.Part whole

/-- The keys of every process are among `whole`, and no submitted token has the form of a ciphertext. -/
def Action.Admissible : Action → Prop
  | .create codec _ r => codec.val.Part whole ∧ ∀ token, r.apiToken = some token → isEncrypted (Ports.trimSpace token) = false
  | .startUpdate codec _ id r =>
      codec.val.Part whole ∧ ∀ token, r.apiToken = some token →
        isEncrypted (codec.val.means gcm id (Ports.trimSpace token)) = false
  | .startSweep codec => codec.val.Part whole
  | _ => True

end Kept

section Laws

variable {gcm : Cipher} {whole : Keyring}

theorem decrypt_clear {codec : Codec} {id : Nat} {stored : Text} (clear : isEncrypted stored = false) :
    codec.decrypt gcm id stored = .ok stored := by
  cases codec with
  | off => rfl
  | on ring =>
      unfold Codec.decrypt Codec.decryptBound
      simp only [clear]
      rfl

theorem means_clear {codec : Codec} {id : Nat} {token : Text} (clear : isEncrypted token = false) :
    codec.means gcm id token = token := by
  unfold Codec.means
  rw [decrypt_clear clear]
  rfl

theorem decrypt_ok {codec : Codec} {id : Nat} {stored plain : Text} :
    codec.decrypt gcm id stored = .ok plain ↔ codec.decryptBound gcm (aad id) stored = .ok plain := by
  unfold Codec.decrypt
  cases codec.decryptBound gcm (aad id) stored <;> simp [Except.mapError]

theorem hides_blank (id : Nat) (writer : Option Text) : Hides gcm whole id [] [] writer :=
  ⟨decrypt_clear rfl, rfl, fun _ _ => .inl rfl⟩

theorem encrypt_hides (opens : gcm.Opens) {codec : Codec} (sound : codec.Sound) (part : codec.Part whole)
    {nonce : List UInt8} (length : nonce.length = nonceLen) {id : Nat} {token enc : Text}
    (clear : isEncrypted (codec.means gcm id token) = false) (done : codec.encrypt gcm nonce id token = .ok enc) :
    Hides gcm whole id enc (codec.means gcm id token) (writerOf codec token) := by
  cases codec with
  | off =>
      cases done
      have same : Codec.means gcm .off id token = token := rfl
      rw [same] at clear ⊢
      refine ⟨decrypt_clear clear, clear, fun keyID written => ?_⟩
      unfold writerOf at written
      split at written <;> cases written
  | on ring =>
      by_cases blank : token = []
      · subst blank
        cases done
        rw [means_clear rfl]
        exact hides_blank id _
      · cases form : isEncrypted token with
        | false =>
            obtain ⟨key, known, sealing⟩ := @encrypt_sealed gcm _ (aad id) _ sound form blank nonce
            have same : enc = sealedText ring.activeID (nonce ++ gcm.gcmSeal key nonce token (aad id)) :=
              Except.ok.inj (done.symm.trans sealing)
            subst same
            rw [means_clear form]
            refine ⟨decrypt_ok.mpr (decrypt_sealed opens sound.filled sound.plain (part _ _ known) length), form, ?_⟩
            intro keyID written
            have own : keyID = ring.activeID := by simpa [writerOf, form, Codec.active?] using written.symm
            subst own
            exact .inr (@encryptedWithActive_sealed ⟨ring.activeID, []⟩ sound.plain _)
        | true =>
            unfold Codec.encrypt Codec.encryptBound at done
            simp only [if_neg blank, form] at done
            cases read : Codec.decryptBound gcm (.on ring) (aad id) token with
            | error cause => simp [read] at done
            | ok plain =>
                have same : enc = token := by simpa [read] using done.symm
                subst same
                have meant : Codec.means gcm (.on ring) id enc = plain := by
                  unfold Codec.means
                  rw [decrypt_ok.mpr read]
                  rfl
                rw [meant] at clear ⊢
                refine ⟨decrypt_ok.mpr (decrypt_whole part read), clear, fun keyID written => ?_⟩
                simp [writerOf, form] at written

theorem validateCredentials_token {r r' : Request} {create : Bool} (valid : r.validateCredentials create = .ok r') :
    ∀ token, r'.apiToken = some token → ∃ given, r.apiToken = some given ∧ token = Ports.trimSpace given := by
  unfold Request.validateCredentials at valid
  simp only [pure, Except.pure] at valid
  split at valid
  · cases valid
  · split at valid
    · cases valid
    · split at valid
      · cases valid
      · split at valid
        · cases valid
        · split at valid
          · cases valid
          · cases valid
            intro token own
            obtain ⟨given, from_request, rfl⟩ := Option.map_eq_some_iff.mp (Option.filter_eq_some_iff.mp own).1
            exact ⟨given, from_request, rfl⟩

theorem create_kept (opens : gcm.Opens) {w w' : World} (kept : Kept gcm whole w) {codec : Codec} (sound : codec.Sound)
    (part : codec.Part whole) {nonce : List UInt8} (length : nonce.length = nonceLen) {token : Text}
    (clear : isEncrypted token = false) (made : create gcm w codec nonce token = .ok w') : Kept gcm whole w' := by
  have added : ∀ row : NodeRow, Hides gcm whole row.id row.apiToken row.plain row.writer →
      Kept gcm whole { w with rows := w.rows ++ [row], nextId := w.nextId + 1 } := by
    intro row hides
    refine ⟨fun other mem => ?_, kept.pending, kept.sweeps⟩
    rcases List.mem_append.mp mem with old | new
    · exact kept.rows other old
    · rw [List.mem_singleton.mp new]
      exact hides
  cases codec with
  | off =>
      cases made
      exact added _ ⟨decrypt_clear clear, clear, fun _ written => by cases written⟩
  | on ring =>
      simp only [create, bind, Except.bind] at made
      cases done : Codec.encrypt gcm (.on ring) nonce w.nextId token with
      | error _ => simp [done] at made
      | ok enc =>
          rw [done] at made
          cases made
          refine added _ ?_
          have meant : Codec.means gcm (.on ring) w.nextId token = token := means_clear clear
          have hides := encrypt_hides opens sound part length (meant.symm ▸ clear) done
          rw [meant] at hides
          by_cases same : enc = token
          · -- only a blank token is stored as it is
            have blank : token = [] := by
              by_contra filled
              obtain ⟨key, -, sealing⟩ := @encrypt_sealed gcm _ (aad w.nextId) _ sound clear filled nonce
              have form := isEncrypted_sealedText ring.activeID (nonce ++ gcm.gcmSeal key nonce token (aad w.nextId))
              rw [← Except.ok.inj (done.symm.trans sealing), same, clear] at form
              cases form
            subst same
            subst blank
            exact hides_blank _ _
          · simp only [if_neg same]
            exact hides

theorem startUpdate_kept (opens : gcm.Opens) {w : World} (kept : Kept gcm whole w) {codec : Codec} (sound : codec.Sound)
    (part : codec.Part whole) {nonce : List UInt8} (length : nonce.length = nonceLen) {id : Nat} {r : Request}
    (clear : ∀ token, r.apiToken = some token → isEncrypted (codec.means gcm id (Ports.trimSpace token)) = false) :
    Kept gcm whole (startUpdate gcm w codec nonce id r) := by
  have added : ∀ update : PendingUpdate, Hides gcm whole update.id update.apiToken update.plain update.writer →
      Kept gcm whole { w with pending := w.pending ++ [update] } := by
    intro update hides
    refine ⟨kept.rows, fun other mem => ?_, kept.sweeps⟩
    rcases List.mem_append.mp mem with old | new
    · exact kept.pending other old
    · rw [List.mem_singleton.mp new]
      exact hides
  unfold startUpdate
  split
  · rename_i r' existing valid found
    simp only
    split
    · exact kept
    · rename_i update written
      split
      · exact kept
      · refine added update ?_
        split at written
        · cases written
          exact hides_blank id _
        · cases own : r'.apiToken with
          | some token =>
              obtain ⟨given, from_request, rfl⟩ := validateCredentials_token valid token own
              cases done : codec.encrypt gcm nonce id (Ports.trimSpace given) with
              | error _ => simp [own, done, Except.map] at written
              | ok enc =>
                  have made : update = ⟨id, enc, codec.means gcm id (Ports.trimSpace given), writerOf codec (Ports.trimSpace given)⟩ := by
                    simpa [own, done, Except.map] using written.symm
                  rw [made]
                  exact encrypt_hides opens sound part length (clear given from_request) done
          | none =>
              have made : update = ⟨id, existing.apiToken, existing.plain, existing.writer⟩ := by simpa [own] using written.symm
              have row := kept.rows existing (List.mem_of_find?_eq_some found)
              have named : existing.id = id := by simpa using List.find?_some found
              rw [named] at row
              rw [made]
              exact row
  · exact kept

theorem finishUpdate_kept {w : World} (kept : Kept gcm whole w) (i : Nat) : Kept gcm whole (finishUpdate w i) := by
  unfold finishUpdate
  cases found : w.pending[i]? with
  | none => exact kept
  | some update =>
      have mem : update ∈ w.pending := List.mem_of_getElem? found
      refine ⟨fun row row_mem => ?_, fun other other_mem => kept.pending other (List.mem_of_mem_eraseIdx other_mem), kept.sweeps⟩
      obtain ⟨before, before_mem, rfl⟩ := List.mem_map.mp row_mem
      by_cases own : before.id = update.id
      · rw [if_pos own]
        show Hides gcm whole before.id update.apiToken update.plain update.writer
        rw [own]
        exact kept.pending update mem
      · rw [if_neg own]
        exact kept.rows before before_mem

theorem sweepNode_hides (opens : gcm.Opens) {ring : Keyring} (sound : ring.Sound) (part : ring.Part whole)
    {nonce : List UInt8} (length : nonce.length = nonceLen) {id : Nat} {old enc plain : Text} {writer : Option Text}
    (hides : Hides gcm whole id old plain writer) (swap : sweepNode gcm ring nonce id old = .ok (some enc)) :
    Hides gcm whole id enc plain (some ring.activeID) := by
  unfold sweepNode at swap
  split at swap
  · cases swap
  · split at swap
    · cases read : Codec.decrypt gcm (.on ring) id old <;> simp [read, bind, Except.bind, pure, Except.pure] at swap
    · cases read : Codec.decrypt gcm (.on ring) id old with
      | error _ => simp [read, bind, Except.bind] at swap
      | ok text =>
          have whole_read := decrypt_ok.mpr (decrypt_whole part (decrypt_ok.mp read))
          have same : text = plain := Except.ok.inj (whole_read.symm.trans hides.reads)
          subst same
          cases done : Codec.encrypt gcm (.on ring) nonce id text with
          | error _ => simp [read, done, bind, Except.bind] at swap
          | ok sealing =>
              have own : enc = sealing := by simpa [read, done, bind, Except.bind, pure, Except.pure] using swap.symm
              subst own
              have meant : Codec.means gcm (.on ring) id text = text := means_clear hides.clear
              have hidden := @encrypt_hides gcm whole opens (.on ring) sound part _ length _ _ _ (meant.symm ▸ hides.clear) done
              rw [meant] at hidden
              have writer_eq : writerOf (.on ring) text = some ring.activeID := by simp [writerOf, hides.clear, Codec.active?]
              rwa [writer_eq] at hidden

theorem swapToken_missed {w : World} {ring : Keyring} {id : Nat} {old enc : Text}
    (missed : ¬(w.rows.any fun row => row.id = id ∧ row.apiToken = old) = true) : swapToken w ring id old enc = w.rows := by
  unfold swapToken
  refine (List.map_congr_left fun row mem => ?_).trans (List.map_id _)
  refine if_neg fun hit => missed (List.any_eq_true.mpr ⟨row, mem, decide_eq_true hit⟩)

theorem sweepRow_cases (gcm : Cipher) (w : World) (i : Nat) (nonce : List UInt8) :
    sweepRow gcm w i nonce = w ∨ ∃ sweep sweep' id old todo rows, w.sweeps[i]? = some sweep ∧ sweep.todo = (id, old) :: todo ∧
      sweep'.ring = sweep.ring ∧ sweepRow gcm w i nonce = { w with rows := rows, sweeps := w.sweeps.set i sweep' } ∧
      ((rows = w.rows ∧ sweep'.todo = sweep.todo) ∨
        (rows = w.rows ∧ sweep'.todo = todo ∧ sweepNode gcm sweep.ring.val nonce id old = .ok none) ∨
        ∃ enc, sweepNode gcm sweep.ring.val nonce id old = .ok (some enc) ∧ sweep'.todo = todo ∧
          rows = swapToken w sweep.ring.val id old enc) := by
  unfold sweepRow
  cases found : w.sweeps[i]? with
  | none => exact .inl rfl
  | some sweep =>
      by_cases stopped : sweep.failed.isSome = true
      · exact .inl (by simp only [stopped]; rfl)
      · cases todo : sweep.todo with
        | nil => exact .inl (by simp only [todo]; simp)
        | cons next rest =>
            obtain ⟨id, old⟩ := next
            refine .inr ?_
            simp only [todo, if_neg stopped]
            cases swap : sweepNode gcm sweep.ring.val nonce id old with
            | error cause =>
                exact ⟨sweep, { sweep with todo := (id, old) :: rest, failed := some cause }, id, old, rest, w.rows, rfl, todo,
                  rfl, rfl, .inl ⟨rfl, todo.symm⟩⟩
            | ok result =>
                cases result with
                | none =>
                    exact ⟨sweep, { sweep with todo := rest, skipped := sweep.skipped + 1 }, id, old, rest, w.rows, rfl, todo,
                      rfl, rfl, .inr (.inl ⟨rfl, rfl, swap⟩)⟩
                | some enc =>
                    by_cases hit : (w.rows.any fun row => row.id = id ∧ row.apiToken = old) = true
                    · simp only [if_pos hit]
                      exact ⟨sweep, { sweep with todo := rest, changed := sweep.changed + 1 }, id, old, rest, _, rfl, todo, rfl, rfl,
                        .inr (.inr ⟨enc, swap, rfl, rfl⟩)⟩
                    · simp only [if_neg hit]
                      exact ⟨sweep, { sweep with todo := rest, skipped := sweep.skipped + 1 }, id, old, rest, w.rows, rfl, todo,
                        rfl, rfl, .inr (.inr ⟨enc, swap, rfl, (swapToken_missed hit).symm⟩)⟩

theorem sweepRow_kept (opens : gcm.Opens) {w : World} (kept : Kept gcm whole w) (i : Nat) {nonce : List UInt8}
    (length : nonce.length = nonceLen) : Kept gcm whole (sweepRow gcm w i nonce) := by
  obtain same | ⟨sweep, sweep', id, old, todo, rows, found, -, ring, made, changes⟩ := sweepRow_cases gcm w i nonce
  · rw [same]
    exact kept
  · have part := kept.sweeps sweep (List.mem_of_getElem? found)
    rw [made]
    refine ⟨fun row mem => ?_, kept.pending, fun other mem => ?_⟩
    · obtain ⟨rfl, -⟩ | ⟨rfl, -, -⟩ | ⟨enc, swap, -, rfl⟩ := changes
      · exact kept.rows row mem
      · exact kept.rows row mem
      · obtain ⟨before, before_mem, rfl⟩ := List.mem_map.mp mem
        by_cases own : before.id = id ∧ before.apiToken = old
        · rw [if_pos own]
          have hides := kept.rows before before_mem
          rw [own.1, own.2] at hides
          have hidden := sweepNode_hides opens sweep.ring.property part length hides swap
          show Hides gcm whole before.id enc before.plain (some sweep.ring.val.activeID)
          rw [own.1]
          exact hidden
        · rw [if_neg own]
          exact kept.rows before before_mem
    · rcases List.mem_or_eq_of_mem_set mem with unchanged | rfl
      · exact kept.sweeps other unchanged
      · rw [ring]
        exact part

theorem step_kept (opens : gcm.Opens) {w : World} (kept : Kept gcm whole w) {a : Action} (fair : a.Admissible gcm whole) :
    Kept gcm whole (step gcm w a) := by
  suffices held : Kept gcm whole (a.run gcm w) from ⟨held.rows, held.pending, held.sweeps⟩
  cases a with
  | create codec nonce r =>
      obtain ⟨part, clear⟩ := fair
      show Kept gcm whole (createFromRequest gcm w codec.val nonce.val r)
      unfold createFromRequest
      cases valid : r.validateCredentials true with
      | error _ => exact kept
      | ok r' =>
          simp only
          cases made : create gcm w codec.val nonce.val (r'.apiToken.getD []) with
          | error _ => exact kept
          | ok w' =>
              refine create_kept opens kept codec.property part nonce.property ?_ made
              cases own : r'.apiToken with
              | none => rfl
              | some token =>
                  obtain ⟨given, from_request, rfl⟩ := validateCredentials_token valid token own
                  exact clear given from_request
  | startUpdate codec nonce id r => exact startUpdate_kept opens kept codec.property fair.1 nonce.property fair.2
  | finishUpdate i => exact finishUpdate_kept kept i
  | delete id => exact ⟨fun row mem => kept.rows row (List.mem_filter.mp mem).1, kept.pending, kept.sweeps⟩
  | startSweep codec =>
      obtain ⟨codec, sound⟩ := codec
      cases codec with
      | off => exact kept
      | on ring =>
          refine ⟨kept.rows, kept.pending, fun sweep mem => ?_⟩
          rcases List.mem_append.mp mem with old | new
          · exact kept.sweeps sweep old
          · rw [List.mem_singleton.mp new]
            exact fair
  | sweepRow i nonce => exact sweepRow_kept opens kept i nonce.property

theorem run_kept (opens : gcm.Opens) {actions : List Action} : ∀ {w : World}, Kept gcm whole w →
    (∀ a ∈ actions, a.Admissible gcm whole) → Kept gcm whole (actions.foldl (step gcm) w) := by
  induction actions with
  | nil => exact fun kept _ => kept
  | cons a rest ih =>
      intro w kept fair
      exact ih (step_kept opens kept (fair a List.mem_cons_self)) fun b mem => fair b (List.mem_cons_of_mem a mem)

/-- Where a migration is: rows it has to come to, rows under its key, and rows written since by someone else. -/
structure Sweeping (i : Nat) (active : Text) (since : Nat) (w : World) : Prop where
  later : since ≤ w.clock
  rows : ∃ sweep, w.sweeps[i]? = some sweep ∧ sweep.ring.val.activeID = active ∧
    ∀ row ∈ w.rows, Settled active row.apiToken ∨ (since ≤ row.written ∧ row.writer ≠ some active) ∨
      (row.id, row.apiToken) ∈ sweep.todo

theorem settled_or_since {id since written : Nat} {stored plain active : Text} {writer : Option Text}
    (hides : Hides gcm whole id stored plain writer) (later : since ≤ written) :
    Settled active stored ∨ (since ≤ written ∧ writer ≠ some active) := by
  by_cases own : writer = some active
  · exact .inl (hides.settled active own)
  · exact .inr ⟨later, own⟩

theorem sweepNode_settled {ring : Keyring} {nonce : List UInt8} {id : Nat} {old : Text}
    (left : sweepNode gcm ring nonce id old = .ok none) : Settled ring.activeID old := by
  unfold sweepNode at left
  split at left
  · rename_i blank
    exact .inl blank
  · split at left
    · rename_i active
      exact .inr active
    · cases read : Codec.decrypt gcm (.on ring) id old with
      | error _ => simp [read, bind, Except.bind] at left
      | ok text =>
          cases done : Codec.encrypt gcm (.on ring) nonce id text <;>
            simp [read, done, bind, Except.bind, pure, Except.pure] at left

theorem sweeping_set {w : World} {i j : Nat} {sweep other other' : Sweep} (found : w.sweeps[i]? = some sweep)
    (other_found : w.sweeps[j]? = some other) (ring : other'.ring = other.ring) {active : Text}
    (own : sweep.ring.val.activeID = active) {rows : List NodeRow} {since : Nat}
    (left : ∀ row ∈ rows, Settled active row.apiToken ∨ (since ≤ row.written ∧ row.writer ≠ some active) ∨
      (row.id, row.apiToken) ∈ sweep.todo)
    (passed : sweep = other → ∀ row ∈ rows, (row.id, row.apiToken) ∈ other.todo →
      Settled active row.apiToken ∨ (since ≤ row.written ∧ row.writer ≠ some active) ∨
        (row.id, row.apiToken) ∈ other'.todo) :
    ∃ sweep', (w.sweeps.set j other')[i]? = some sweep' ∧ sweep'.ring.val.activeID = active ∧
      ∀ row ∈ rows, Settled active row.apiToken ∨ (since ≤ row.written ∧ row.writer ≠ some active) ∨
        (row.id, row.apiToken) ∈ sweep'.todo := by
  by_cases same : j = i
  · subst same
    have is : sweep = other := Option.some.inj (found.symm.trans other_found)
    refine ⟨other', ?_, by rw [ring, ← is, own], fun row mem => ?_⟩
    · rw [List.getElem?_set_self (List.getElem?_eq_some_iff.mp found).1]
    · rcases left row mem with settled | since | todo
      · exact .inl settled
      · exact .inr (.inl since)
      · exact passed is row mem (is ▸ todo)
  · exact ⟨sweep, (List.getElem?_set_ne same).trans found, own, left⟩

theorem createFromRequest_cases (w : World) (codec : Codec) (nonce : List UInt8) (r : Request) :
    createFromRequest gcm w codec nonce r = w ∨ ∃ row : NodeRow, row.written = w.clock ∧
      createFromRequest gcm w codec nonce r = { w with rows := w.rows ++ [row], nextId := w.nextId + 1 } := by
  unfold createFromRequest
  cases r.validateCredentials true with
  | error _ => exact .inl rfl
  | ok r' =>
      cases codec with
      | off => exact .inr ⟨_, rfl, rfl⟩
      | on ring =>
          simp only [create, bind, Except.bind]
          cases Codec.encrypt gcm (.on ring) nonce w.nextId (r'.apiToken.getD []) with
          | error _ => exact .inl rfl
          | ok enc => exact .inr ⟨_, rfl, rfl⟩

theorem startUpdate_frame (w : World) (codec : Codec) (nonce : List UInt8) (id : Nat) (r : Request) :
    (startUpdate gcm w codec nonce id r).rows = w.rows ∧ (startUpdate gcm w codec nonce id r).sweeps = w.sweeps := by
  unfold startUpdate
  split
  · simp only
    split
    · exact ⟨rfl, rfl⟩
    · split <;> exact ⟨rfl, rfl⟩
  · exact ⟨rfl, rfl⟩

theorem step_sweeping (opens : gcm.Opens) {w : World} (kept : Kept gcm whole w) {a : Action}
    (fair : a.Admissible gcm whole) {i since : Nat} {active : Text} (sweeping : Sweeping i active since w) :
    Sweeping i active since (step gcm w a) := by
  have after := step_kept opens kept fair
  obtain ⟨later, sweep, found, own, rows⟩ := sweeping
  refine ⟨Nat.le_succ_of_le later, ?_⟩
  have since_now : ∀ row ∈ (step gcm w a).rows, row.written = w.clock →
      Settled active row.apiToken ∨ (since ≤ row.written ∧ row.writer ≠ some active) :=
    fun row mem now => settled_or_since (after.rows row mem) (now ▸ later)
  cases a with
  | create codec nonce r =>
      have since_now : ∀ row ∈ (createFromRequest gcm w codec.val nonce.val r).rows, row.written = w.clock → _ := since_now
      show ∃ sweep, (createFromRequest gcm w codec.val nonce.val r).sweeps[i]? = some sweep ∧ _ ∧
        ∀ row ∈ (createFromRequest gcm w codec.val nonce.val r).rows, _
      rcases @createFromRequest_cases gcm w codec.val nonce.val r with same | ⟨new, now, made⟩
      · rw [same]
        exact ⟨sweep, found, own, rows⟩
      · rw [made] at since_now ⊢
        refine ⟨sweep, found, own, fun row mem => ?_⟩
        rcases List.mem_append.mp mem with old | fresh
        · exact rows row old
        · have is_new := List.mem_singleton.mp fresh
          exact (since_now row mem (is_new ▸ now)).imp_right .inl
  | startUpdate codec nonce id r =>
      obtain ⟨rows_same, sweeps_same⟩ := @startUpdate_frame gcm w codec.val nonce.val id r
      have rows_same : (step gcm w (.startUpdate codec nonce id r)).rows = w.rows := rows_same
      have sweeps_same : (step gcm w (.startUpdate codec nonce id r)).sweeps = w.sweeps := sweeps_same
      rw [rows_same, sweeps_same]
      exact ⟨sweep, found, own, rows⟩
  | finishUpdate j =>
      have sweeps_same : (step gcm w (.finishUpdate j)).sweeps = w.sweeps := by
        show (finishUpdate w j).sweeps = w.sweeps
        unfold finishUpdate
        split <;> rfl
      rw [sweeps_same]
      refine ⟨sweep, found, own, fun row mem => ?_⟩
      by_cases now : row.written = w.clock
      · exact (since_now row mem now).imp_right .inl
      · have old : row ∈ w.rows := by
          have mem : row ∈ (finishUpdate w j).rows := mem
          unfold finishUpdate at mem
          split at mem
          · exact mem
          · obtain ⟨before, before_mem, made⟩ := List.mem_map.mp mem
            split at made
            · exact absurd (made ▸ rfl) now
            · exact made ▸ before_mem
        exact rows row old
  | delete id => exact ⟨sweep, found, own, fun row mem => rows row (List.mem_filter.mp mem).1⟩
  | startSweep codec =>
      obtain ⟨codec, sound⟩ := codec
      cases codec with
      | off => exact ⟨sweep, found, own, rows⟩
      | on ring => exact ⟨sweep, List.getElem?_append_left (List.getElem?_eq_some_iff.mp found).1 ▸ found, own, rows⟩
  | sweepRow j nonce =>
      have since_now : ∀ row ∈ (sweepRow gcm w j nonce.val).rows, row.written = w.clock → _ := since_now
      show ∃ sweep, (sweepRow gcm w j nonce.val).sweeps[i]? = some sweep ∧ _ ∧ ∀ row ∈ (sweepRow gcm w j nonce.val).rows, _
      obtain same | ⟨other, other', id, old, todo, rows', other_found, whole_todo, ring, made, changes⟩ :=
        sweepRow_cases gcm w j nonce.val
      · rw [same]
        exact ⟨sweep, found, own, rows⟩
      · rw [made] at since_now ⊢
        obtain ⟨rfl, todo_same⟩ | ⟨rfl, todo_rest, swap⟩ | ⟨enc, swap, todo_rest, rfl⟩ := changes
        · exact sweeping_set found other_found ring own rows fun _ _ _ in_todo => .inr (.inr (todo_same ▸ in_todo))
        · refine sweeping_set found other_found ring own rows fun is row _ in_todo => ?_
          rw [whole_todo] at in_todo
          rcases List.mem_cons.mp in_todo with this | later_row
          · have settled := sweepNode_settled swap
            rw [← is, own, ← (Prod.mk.inj this).2] at settled
            exact .inl settled
          · exact .inr (.inr (todo_rest ▸ later_row))
        · have unswapped : ∀ row ∈ swapToken w other.ring.val id old enc, row.written = w.clock ∨
              (row ∈ w.rows ∧ (row.id, row.apiToken) ≠ (id, old)) := by
            intro row mem
            obtain ⟨before, before_mem, rfl⟩ := List.mem_map.mp mem
            by_cases hit : before.id = id ∧ before.apiToken = old
            · exact .inl (by rw [if_pos hit])
            · rw [if_neg hit]
              refine .inr ⟨before_mem, fun same => hit ⟨(Prod.mk.inj same).1, (Prod.mk.inj same).2⟩⟩
          refine sweeping_set found other_found ring own (fun row mem => ?_) fun is row mem in_todo => ?_
          · rcases unswapped row mem with now | ⟨old_mem, -⟩
            · exact (since_now row mem now).imp_right .inl
            · exact rows row old_mem
          · rcases unswapped row mem with now | ⟨-, differs⟩
            · exact (since_now row mem now).imp_right .inl
            · rw [whole_todo] at in_todo
              exact .inr (.inr (todo_rest ▸ (List.mem_cons.mp in_todo).resolve_left differs))

theorem run_sweeping (opens : gcm.Opens) {i since : Nat} {active : Text} {actions : List Action} : ∀ {w : World},
    Kept gcm whole w → (∀ a ∈ actions, a.Admissible gcm whole) → Sweeping i active since w →
      Sweeping i active since (actions.foldl (step gcm) w) := by
  induction actions with
  | nil => exact fun _ _ sweeping => sweeping
  | cons a rest ih =>
      intro w kept fair sweeping
      have fair_a := fair a List.mem_cons_self
      exact ih (step_kept opens kept fair_a) (fun b mem => fair b (List.mem_cons_of_mem a mem))
        (step_sweeping opens kept fair_a sweeping)

/-- When a migration has come to its end, the active key alone reads every token, whatever else was written in between;
only a token that was written since and is not sealed under that key may need another one. -/
theorem sweep_settles (opens : gcm.Opens) {w : World} (kept : Kept gcm whole w) {ring : Keyring} (sound : ring.Sound)
    (part : ring.Part whole) {actions : List Action} (fair : ∀ a ∈ actions, a.Admissible gcm whole) {sweep : Sweep}
    (found : (actions.foldl (step gcm) (step gcm w (.startSweep ⟨.on ring, sound⟩))).sweeps[w.sweeps.length]? = some sweep)
    (finished : sweep.todo = []) :
    ∀ row ∈ (actions.foldl (step gcm) (step gcm w (.startSweep ⟨.on ring, sound⟩))).rows,
      (w.clock ≤ row.written ∧ row.writer ≠ some ring.activeID) ∨
        ∀ other : Keyring, other.Part whole → (other.key? ring.activeID).isSome →
          Codec.decrypt gcm (.on other) row.id row.apiToken = .ok row.plain := by
  have first : Action.Admissible gcm whole (.startSweep ⟨.on ring, sound⟩) := part
  have started := step_kept opens kept first
  have sweeping : Sweeping w.sweeps.length ring.activeID w.clock (step gcm w (.startSweep ⟨.on ring, sound⟩)) := by
    refine ⟨Nat.le_succ _, _, List.getElem?_concat_length, rfl, fun row mem => .inr (.inr ?_)⟩
    exact List.mem_map.mpr ⟨row, mem, rfl⟩
  obtain ⟨-, sweep', found', -, rows⟩ := run_sweeping opens started fair sweeping
  have same : sweep' = sweep := Option.some.inj (found'.symm.trans found)
  subst same
  intro row mem
  have reads := decrypt_ok.mp ((run_kept opens started fair).rows row mem).reads
  rcases rows row mem with settled | since | todo
  · refine .inr fun other other_part known => decrypt_ok.mpr ?_
    rcases settled with blank | active
    · rw [blank] at reads ⊢
      exact reads
    · obtain ⟨opened, all⟩ := @decrypt_active gcm ⟨ring.activeID, []⟩ _ sound.filled active (aad row.id)
      obtain ⟨key, there⟩ := Option.isSome_iff_exists.mp known
      rw [all, there]
      rw [all, other_part _ _ there] at reads
      exact reads
  · exact .inl since
  · rw [finished] at todo
    cases todo

end Laws

namespace Example

def plainBytes (text : Text) : List UInt8 :=
  text.flatMap fun c => [.ofNat (c.toNat / 65536), .ofNat (c.toNat / 256), .ofNat c.toNat]

def ofBytes : List UInt8 → Text
  | a :: b :: c :: rest => Char.ofNat (a.toNat * 65536 + b.toNat * 256 + c.toNat) :: ofBytes rest
  | _ => []

theorem ofBytes_plainBytes (text : Text) : ofBytes (plainBytes text) = text := by
  induction text with
  | nil => rfl
  | cons c rest ih =>
      have bound : c.toNat < 1114112 := by
        rcases c.valid with low | high
        · exact Nat.lt_trans low (by decide)
        · exact high.2
      have whole : (UInt8.ofNat (c.toNat / 65536)).toNat * 65536 + (UInt8.ofNat (c.toNat / 256)).toNat * 256 +
          (UInt8.ofNat c.toNat).toNat = c.toNat := by
        rw [UInt8.toNat_ofNat', UInt8.toNat_ofNat', UInt8.toNat_ofNat']
        omega
      show Char.ofNat _ :: ofBytes (plainBytes rest) = c :: rest
      rw [whole, ih, Char.ofNat_toNat]

def openCipher : Cipher where
  gcmSeal key _ text bound := key ++ plainBytes (bound ++ ['|'] ++ text)
  gcmOpen key _ blob bound :=
    if key.isPrefixOf blob then cutPrefix (bound ++ ['|']) (ofBytes (blob.drop key.length)) else none

theorem openCipher_opens : openCipher.Opens := by
  intro key nonce text bound
  show (if key.isPrefixOf (key ++ plainBytes (bound ++ ['|'] ++ text)) then
    cutPrefix (bound ++ ['|']) (ofBytes ((key ++ plainBytes (bound ++ ['|'] ++ text)).drop key.length)) else none) = some text
  rw [if_pos (List.isPrefixOf_iff_prefix.mpr (List.prefix_append _ _)), List.drop_left, ofBytes_plainBytes,
    cutPrefix_append]

def oldRing : Keyring := ⟨"k1".toList, [("k1".toList, [1])]⟩

def newRing : Keyring := ⟨"k2".toList, [("k1".toList, [1]), ("k2".toList, [2])]⟩

theorem oldRing_sound : oldRing.Sound := ⟨by decide, by decide, [1], by decide⟩

theorem newRing_sound : newRing.Sound := ⟨by decide, by decide, [2], by decide⟩

theorem old_part : oldRing.Part newRing := by
  intro id key known
  by_cases own : id = "k1".toList
  · subst own
    exact known
  · have unlike : ¬("k1".toList = id) := Ne.symm own
    simp only [Keyring.key?, oldRing, List.find?, decide_eq_false unlike] at known
    cases known

def someNonce : Nonce := ⟨List.replicate 12 7, rfl⟩

def empty : World := ⟨[], 1, [], [], 0⟩

theorem empty_kept : Kept openCipher newRing empty :=
  ⟨fun _ mem => absurd mem List.not_mem_nil, fun _ mem => absurd mem List.not_mem_nil,
    fun _ mem => absurd mem List.not_mem_nil⟩

def enroll (token : String) : Action :=
  .create ⟨.on oldRing, oldRing_sound⟩ someNonce ⟨some token.toList, false, true, false⟩

def enrolled : World := [enroll "tok", enroll "other"].foldl (step openCipher) empty

def sweepAndUpdate : List Action :=
  [.startUpdate ⟨.on newRing, newRing_sound⟩ someNonce 1 ⟨none, false, true, false⟩, .sweepRow 0 someNonce,
    .sweepRow 0 someNonce, .finishUpdate 0]

theorem enroll_admissible : ∀ a ∈ [enroll "tok", enroll "other"], a.Admissible openCipher newRing := by
  intro a mem
  rcases List.mem_cons.mp mem with rfl | mem
  · refine ⟨old_part, fun token own => ?_⟩
    cases own
    decide
  · rw [List.mem_singleton.mp mem]
    refine ⟨old_part, fun token own => ?_⟩
    cases own
    decide

theorem sweepAndUpdate_admissible : ∀ a ∈ sweepAndUpdate, a.Admissible openCipher newRing := by
  intro a mem
  rcases List.mem_cons.mp mem with rfl | mem
  · exact ⟨fun _ _ known => known, fun token own => by cases own⟩
  · rcases List.mem_cons.mp mem with rfl | mem
    · trivial
    · rcases List.mem_cons.mp mem with rfl | mem
      · trivial
      · rw [List.mem_singleton.mp mem]
        trivial

/-- The update brings the old ciphertext of the first node back, and the new key alone no longer reads it. -/
theorem sweep_settles_update :
    ((sweepAndUpdate.foldl (step openCipher) (step openCipher enrolled (.startSweep ⟨.on newRing, newRing_sound⟩))).rows.map
      fun row => (Codec.decrypt openCipher (.on ⟨"k2".toList, [("k2".toList, [2])]⟩) row.id row.apiToken).toOption) =
        [none, some "other".toList] ∧
    ∀ row ∈ (sweepAndUpdate.foldl (step openCipher) (step openCipher enrolled (.startSweep ⟨.on newRing, newRing_sound⟩))).rows,
      (enrolled.clock ≤ row.written ∧ row.writer ≠ some newRing.activeID) ∨
        ∀ other : Keyring, other.Part newRing → (other.key? newRing.activeID).isSome →
          Codec.decrypt openCipher (.on other) row.id row.apiToken = .ok row.plain := by
  refine ⟨by decide +kernel, ?_⟩
  have kept : Kept openCipher newRing enrolled := run_kept openCipher_opens empty_kept enroll_admissible
  have ended : ((sweepAndUpdate.foldl (step openCipher)
      (step openCipher enrolled (.startSweep ⟨.on newRing, newRing_sound⟩))).sweeps[enrolled.sweeps.length]?).map (·.todo) =
        some [] := by decide +kernel
  obtain ⟨sweep, found, finished⟩ := Option.map_eq_some_iff.mp ended
  exact sweep_settles openCipher_opens kept newRing_sound (fun _ _ known => known) sweepAndUpdate_admissible found finished

end Example

end ThreeXNode.Service.NodeTokens
