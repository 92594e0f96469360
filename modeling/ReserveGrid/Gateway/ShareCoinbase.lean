import ReserveGrid.Gateway.Session
import ReserveGrid.Support.Sha256
import ReserveGrid.TemplateManager.CoinbaseTx

/-!
# The coinbase of an accepted share

The template manager writes the length of the coinbase script into the first
half, for an extranonce of the size it is configured with. The gateway puts the
extranonce of a share between the halves. For a share submitted as a standard
one this is the channel's prefix, of that size; for an extended share the
miner's part comes after the prefix, and the script is longer than its length
says.
-/

namespace ReserveGrid.Gateway

open Support Bitcoin TemplateManager

/-! ## The bytes around an extranonce -/

/-- The bytes are, with none left over, one transaction whose single input has
the given script. -/
def SpellsCoinbase (bytes script : Bytes) : Prop :=
  ∃ tx i, transaction.decodeAll bytes = some tx ∧ tx.input = [i] ∧
    i.scriptSig = script

section

variable {push aux e payout : Bytes} {value : UInt64} {commitment : Option Bytes}

/-- With the right length, the halves around the extranonce are a coinbase. -/
theorem spellsCoinbase_of_length_eq (hscript : (push ++ aux ++ e).length < 253)
    (hpayout : payout.length < 253)
    (hcommitment : ∀ wc ∈ commitment, wc.length < 253) :
    SpellsCoinbase (coinbasePrefix (push ++ aux ++ e).length push aux ++ e ++
      coinbaseSuffix value payout commitment) (push ++ aux ++ e) :=
  ⟨_, _, decodeAll_coinbaseTx hscript hpayout hcommitment, rfl, rfl⟩

theorem outPoint_encode_length (o : OutPoint) :
    (outPoint.encode o).length = 36 := by
  change (o.txid.toBytes ++ leBytes 4 o.vout.toNat).length = 36
  rw [List.length_append, Bytes32.length_toBytes, length_leBytes]

/-- The first bytes of the legacy form of a transaction with one input. -/
theorem legacyEncode_of_singleton {tx : Transaction} {i : TxIn}
    (hinput : tx.input = [i]) (hscript : i.scriptSig.length < 253) :
    ∃ rest, tx.legacyEncode = leBytes 4 tx.version.toNat ++ (0x01 ::
      (outPoint.encode i.previousOutput ++
        (UInt8.ofNat i.scriptSig.length :: rest))) := by
  refine ⟨i.scriptSig ++ leBytes 4 i.sequence.toNat ++
    (outputs.encode tx.output ++ leBytes 4 tx.lockTime.toNat), ?_⟩
  rw [Transaction.legacyEncode, hinput]
  change leBytes 4 tx.version.toNat ++ ([0x01] ++
    ((outPoint.encode i.previousOutput ++ ((compactSizeEncode
      i.scriptSig.length ++ i.scriptSig) ++ leBytes 4 i.sequence.toNat)) ++ []) ++
      (outputs.encode tx.output ++ leBytes 4 tx.lockTime.toNat)) = _
  rw [compactSizeEncode_of_lt hscript]
  simp only [List.append_assoc, List.append_nil, List.cons_append,
    List.nil_append]

theorem ofNat_ne_ofNat {m n : ℕ} (hm : m < 256) (hn : n < 256) (h : m ≠ n) :
    UInt8.ofNat m ≠ UInt8.ofNat n := by
  intro heq
  have htoNat := congrArg UInt8.toNat heq
  rw [UInt8.toNat_ofNat_of_lt' hm, UInt8.toNat_ofNat_of_lt' hn] at htoNat
  exact h htoNat

/-- With another length, they are no transaction with that script. -/
theorem not_spellsCoinbase_of_length_ne {n : ℕ} {suffix : Bytes} (hn : n < 253)
    (hscript : (push ++ aux ++ e).length < 253)
    (hne : n ≠ (push ++ aux ++ e).length) :
    ¬ SpellsCoinbase (coinbasePrefix n push aux ++ e ++ suffix)
      (push ++ aux ++ e) := by
  rintro ⟨tx, i, hdecode, hinput, hsig⟩
  have hbytes := (transaction.decodeAll_eq_some.mp hdecode).2
  have hhalves : coinbasePrefix n push aux ++ e ++ suffix =
      leBytes 4 2 ++ (0x01 :: ((List.replicate 32 0x00 ++ leBytes 4 0xffffffff) ++
        (UInt8.ofNat n :: (push ++ aux ++ e ++ suffix)))) := by
    simp only [coinbasePrefix, List.append_assoc, List.cons_append,
      List.nil_append]
  have hversion : ∀ v : UInt32, (leBytes 4 2).length = (leBytes 4 v.toNat).length := by
    intro v
    rw [length_leBytes, length_leBytes]
  change _ = tx.encode at hbytes
  rw [hhalves, Transaction.encode] at hbytes
  by_cases hsegwit : tx.usesSegwitSerialization = true
  · -- The marker of the extended form would stand where the input count does.
    rw [if_pos hsegwit] at hbytes
    have hmarker := List.append_inj_right hbytes (hversion tx.version)
    cases hmarker
  · rw [if_neg hsegwit] at hbytes
    rw [← hsig] at hscript hne
    obtain ⟨rest, hlegacy⟩ := legacyEncode_of_singleton hinput hscript
    rw [hlegacy] at hbytes
    have hcount := List.append_inj_right hbytes (hversion tx.version)
    rw [List.cons.injEq] at hcount
    have hlength := List.append_inj_right hcount.2 (by
      rw [outPoint_encode_length, List.length_append, List.length_replicate,
        length_leBytes])
    rw [List.cons.injEq] at hlength
    exact ofNat_ne_ofNat (by omega) (by omega) hne hlength.1

end

/-! ## The extranonce sizes of open channels -/

/-- The prefix has the configured length, and an extended channel was granted
the prefix and at least four bytes more. -/
structure ChannelState.Sized (cfg : HandlerConfig) (ch : ChannelState) : Prop where
  length_eq : ch.extranoncePrefix.length = cfg.extranoncePrefixLen
  granted : ∀ least size, ch.kind = .extended least size →
    least.toNat ≤ 8 ∧
      size.toNat = cfg.extranoncePrefixLen + max least.toNat 4

theorem ChannelState.Sized.of_same {cfg : HandlerConfig} {ch ch' : ChannelState}
    (h : ch.Sized cfg) (hsame : ch.Same ch') :
    ch'.Sized cfg := by
  refine ⟨?_, ?_⟩
  · rw [hsame.extranoncePrefix]
    exact h.length_eq
  · rw [hsame.kind]
    exact h.granted

namespace Session

/-- Every channel of a connection that has not ended is sized. -/
structure Sized (cfg : HandlerConfig) (s : Session) : Prop where
  prefixLen : s.extranonceAlloc.prefixLen = cfg.extranoncePrefixLen
  channels : s.conn.exit = none → ∀ id ch, s.conn.channels.get id = some ch →
    ch.Sized cfg

variable {sha : Bytes → Bytes32} {cfg : HandlerConfig} {s t : Session}

theorem initial_sized (cfg : HandlerConfig) (htwo : 2 ≤ cfg.extranoncePrefixLen)
    (height : cfg.extranoncePrefixLen ≤ 8) (retentionMs : UInt64)
    (maxEntries : ℕ) :
    (initial cfg htwo height retentionMs maxEntries).Sized cfg := by
  refine ⟨rfl, ?_⟩
  intro _ id ch hget
  cases hget

theorem Sized.withConn (hs : s.Sized cfg) {conn : Connection}
    (hkeeps : s.conn.channels.Keeps conn.channels)
    (hexit : conn.exit = none → s.conn.exit = none)
    {receiver : Receiver JobRecord} :
    ({ s with conn, receiver } : Session).Sized cfg := by
  refine ⟨hs.prefixLen, ?_⟩
  intro hrunning id ch' hget
  obtain ⟨ch, hch, hsame⟩ := hkeeps id ch' hget
  exact (hs.channels (hexit hrunning) id ch hch).of_same hsame

theorem Sized.openWith (hs : s.Sized cfg) (hexit : s.conn.exit = none)
    (clock : Clock) (requestId : UInt32) {build : UInt32 → Bytes → ChannelState}
    (success : UInt32 → Bytes → Frame)
    (hbuild : ∀ channelId extranonce,
      extranonce.length = cfg.extranoncePrefixLen →
        (build channelId extranonce).Sized cfg) :
    ({ s with toGatewayState :=
      s.openWith sha cfg clock requestId build success } : Session).Sized cfg := by
  obtain ⟨-, hlen, hended | ⟨channelId, extranonce, channels, he, hopen, hconn⟩⟩ :=
    openWith_cases sha cfg clock requestId build success s.toGatewayState
  · exact ⟨hlen.trans hs.prefixLen, fun hrunning => absurd hrunning hended⟩
  · refine ⟨hlen.trans hs.prefixLen, ?_⟩
    intro _ id ch' hget
    change (s.openWith sha cfg clock requestId build success).conn.channels.get
      id = some ch' at hget
    rw [hconn] at hget
    obtain ⟨ch, hch, hsame⟩ := startChannel_keeps _ _ _ _ _ _ _ _ id ch' hget
    refine ChannelState.Sized.of_same ?_ hsame
    rcases ConnectionChannels.get_openChannel hopen hch with ⟨-, rfl⟩ | hold
    · exact hbuild channelId extranonce (he.trans hs.prefixLen)
    · exact hs.channels hexit id ch hold

theorem Sized.openStandard (hs : s.Sized cfg) (hexit : s.conn.exit = none)
    (clock : Clock) (req : OpenStandardMiningChannel) :
    ({ s with toGatewayState :=
      s.handleOpenStandardChannel sha cfg clock req } : Session).Sized cfg := by
  apply hs.openWith hexit
  intro channelId extranonce hlength
  refine ⟨hlength, ?_⟩
  intro least size hkind
  cases hkind

theorem toNat_grantedSize {least : UInt16} (hlen : cfg.extranoncePrefixLen ≤ 8)
    (hleast : least.toNat ≤ 8) :
    (GatewayState.grantedSize cfg least).toNat =
      cfg.extranoncePrefixLen + max least.toNat 4 := by
  have hsize : UInt16.size = 65536 := rfl
  rw [GatewayState.grantedSize]
  exact UInt16.toNat_ofNat_of_lt' (by omega)

theorem Sized.openExtended (hs : s.Sized cfg) (hexit : s.conn.exit = none)
    (clock : Clock) (req : OpenExtendedMiningChannel) :
    ({ s with toGatewayState :=
      s.handleOpenExtendedChannel sha cfg clock req } : Session).Sized cfg := by
  rcases handleOpenExtendedChannel_cases sha cfg clock req s.toGatewayState with
    ⟨conn, hended, heq⟩ | ⟨hleast, heq⟩
  · rw [heq]
    exact ⟨hs.prefixLen, fun hrunning => absurd hrunning hended⟩
  · rw [heq]
    apply hs.openWith hexit
    intro channelId extranonce hlength
    refine ⟨hlength, ?_⟩
    intro least size hkind
    cases hkind
    exact ⟨hleast, toNat_grantedSize (hs.prefixLen ▸ s.extranonceAlloc.le_eight)
      hleast⟩

theorem Sized.handlerStep (hs : s.Sized cfg) (hexit : s.conn.exit = none)
    {event : SessionEvent} (h : s.handlerStep sha cfg event = some t) :
    t.Sized cfg := by
  rcases handlerStep_cases h with ⟨clock, req, -, rfl⟩ | ⟨clock, req, -, rfl⟩ |
    ⟨n, receiver, -, rfl⟩ | ⟨clock, order, job, receiver, -, -, rfl⟩ |
    ⟨env, submission, -, rfl⟩ | ⟨channelId, -, rfl⟩ | ⟨exit, rfl⟩
  · exact hs.openStandard hexit clock req
  · exact hs.openExtended hexit clock req
  · exact hs.withConn (.refl _) id
  · exact hs.withConn (distributeJob_keeps _ _ _ _) fun _ => hexit
  · exact hs.withConn (handleSubmission_answers sha cfg env submission s).channels
      fun _ => hexit
  · exact hs.withConn (handleCloseChannel_keeps channelId s.conn) fun _ => hexit
  · exact ⟨hs.prefixLen, fun hrunning => nomatch hrunning⟩

theorem Sized.step (hs : s.Sized cfg) {event : SessionEvent}
    (h : s.step sha cfg event = some t) :
    t.Sized cfg := by
  rcases step_cases h with hloop | ⟨-, rfl⟩ | ⟨-, hexit, hhandler⟩
  · rcases loopStep_cases hloop with ⟨_, _, -, rfl⟩ |
      ⟨_, _, _, _, -, -, -, -, -, rfl⟩ | ⟨_, -, rfl⟩ | ⟨_, -, -, rfl⟩ |
      ⟨_, _, hlen, rfl⟩
    · exact ⟨hs.prefixLen, hs.channels⟩
    · exact ⟨hs.prefixLen, hs.channels⟩
    · exact ⟨hs.prefixLen, hs.channels⟩
    · exact ⟨hs.prefixLen, hs.channels⟩
    · exact ⟨hlen.trans hs.prefixLen, hs.channels⟩
  · exact ⟨hs.prefixLen, hs.channels⟩
  · exact hs.handlerStep hexit hhandler

theorem sized_of_run {htwo : 2 ≤ cfg.extranoncePrefixLen}
    {height : cfg.extranoncePrefixLen ≤ 8} {retentionMs : UInt64}
    {maxEntries : ℕ} {events : List SessionEvent}
    (hrun : run (Session.step sha cfg)
      (initial cfg htwo height retentionMs maxEntries) events = some s) :
    s.Sized cfg :=
  invariant_of_run (fun _ _ _ hs hstep => hs.step hstep)
    (initial_sized cfg htwo height retentionMs maxEntries) hrun

/-! ## Accepted shares -/

/-- The share is accepted with a merkle root over a real coinbase: the halves
of its job around its whole extranonce are one transaction, whose single input
has the head and the extranonce for its script. -/
def HashesCoinbase (sha : Bytes → Bytes32) (cfg : HandlerConfig) (env : SubmitEnv)
    (submission : Submission) (head : Bytes) (s : Session) : Prop :=
  ∃ ch job extranonce sent,
    s.conn.channels.get submission.fields.channelId = some ch ∧
    s.feed.jobTable.get submission.fields.jobId = some job ∧
    submission.extranonceOf ch = .ok extranonce ∧
    (s.handleSubmission sha cfg env submission).2.submission =
      some (env.sign sent) ∧
    sent.merkleRootWireHex = hexEncode (computeMerkleRoot sha
      job.coinbaseTxPrefix extranonce job.coinbaseTxSuffix
      job.merklePath).toBytes ∧
    SpellsCoinbase (job.coinbaseTxPrefix ++ extranonce ++ job.coinbaseTxSuffix)
      (head ++ extranonce)

end Session

/-- The halves of the template were built for extranonces of the given size,
with the given height and auxiliary bytes in the script. -/
def TemplateResponse.BuiltWith (extranonceSize : ℕ) (height : UInt32)
    (aux : Bytes) (template : TemplateResponse) : Prop :=
  ∃ value payout commitment halves,
    buildCoinbaseHalves height value payout extranonceSize aux commitment =
      .ok halves ∧
    template.coinbaseTxPrefix = hexEncode halves.1 ∧
    template.coinbaseTxSuffix = hexEncode halves.2

/-- The halves in the job of such a template. -/
theorem JobRecord.ComesFrom.halves {job : JobRecord} {template : TemplateResponse}
    {extranonceSize : ℕ} {height : UInt32} {aux : Bytes}
    (hfrom : job.ComesFrom template)
    (hbuilt : template.BuiltWith extranonceSize height aux) :
    (bip34HeightPush height).length + aux.length + extranonceSize ≤ 100 ∧
      job.coinbaseTxPrefix = coinbasePrefix
        ((bip34HeightPush height).length + aux.length + extranonceSize)
        (bip34HeightPush height) aux ∧
      ∃ value payout commitment, payout.length < 253 ∧
        (∀ wc ∈ commitment, wc.length < 253) ∧
        job.coinbaseTxSuffix = coinbaseSuffix value payout commitment := by
  obtain ⟨value, payout, commitment, halves, hhalves, hpre, hsuf⟩ := hbuilt
  obtain ⟨hlength, hpayout, hcommitment, rfl⟩ := buildCoinbaseHalves_eq_ok hhalves
  have hfirst := hfrom.coinbaseTxPrefix
  have hsecond := hfrom.coinbaseTxSuffix
  rw [hpre, hexDecode_hexEncode, Except.ok.injEq] at hfirst
  rw [hsuf, hexDecode_hexEncode, Except.ok.injEq] at hsecond
  exact ⟨hlength, hfirst.symm, value, payout, commitment, hpayout, hcommitment,
    hsecond.symm⟩

/-- The extranonce of an extended share is longer than the channel's prefix. -/
theorem length_extendedExtranonce {cfg : HandlerConfig} {ch : ChannelState}
    {part extranonce : Bytes} (hsized : ch.Sized cfg)
    (h : extendedExtranonce part ch = .ok extranonce) :
    cfg.extranoncePrefixLen + 4 ≤ extranonce.length ∧
      extranonce.length ≤ cfg.extranoncePrefixLen + 8 := by
  unfold extendedExtranonce at h
  split at h
  · cases h
  · rename_i least size hkind
    obtain ⟨hleast, hgranted⟩ := hsized.granted least size hkind
    split at h
    · cases h
    · rename_i hlength
      rw [not_not, hgranted, hsized.length_eq] at hlength
      cases h
      rw [List.length_append, hsized.length_eq, hlength]
      omega

namespace Session

variable {sha : Bytes → Bytes32} {cfg : HandlerConfig} {s : Session}
  {env : SubmitEnv} {submission : Submission} {difficulty : UInt64}
  {job : JobRecord} {template : TemplateResponse} {blockHeight : UInt32}
  {aux : Bytes}

/-- An accepted standard share hashes a real coinbase. -/
theorem hashesCoinbase_of_isStandard (hs : s.Sized cfg)
    (hexit : s.conn.exit = none) (hstandard : submission.isStandard = true)
    (haccepted : (s.handleSubmission sha cfg env submission).2.reply =
      .ok difficulty)
    (hjob : s.feed.jobTable.get submission.fields.jobId = some job)
    (hfrom : job.ComesFrom template)
    (hbuilt : template.BuiltWith cfg.extranoncePrefixLen blockHeight aux) :
    s.HashesCoinbase sha cfg env submission (bip34HeightPush blockHeight ++ aux) := by
  obtain ⟨ch, job', extranonce, sent, hch, hjob', hextranonce, hsent, hroot⟩ :=
    handleSubmission_eq_ok haccepted
  refine ⟨ch, job', extranonce, sent, hch, hjob', hextranonce, hsent, hroot, ?_⟩
  rw [hjob, Option.some.injEq] at hjob'
  subst hjob'
  obtain ⟨hlength, hpre, value, payout, commitment, hpayout, hcommitment, hsuf⟩ :=
    hfrom.halves hbuilt
  have hsize : extranonce.length = cfg.extranoncePrefixLen := by
    cases submission with
    | standard share =>
        cases hextranonce
        exact (hs.channels hexit _ ch hch).length_eq
    | extended share => cases hstandard
  have hscript : (bip34HeightPush blockHeight ++ aux ++ extranonce).length =
      (bip34HeightPush blockHeight).length + aux.length +
        cfg.extranoncePrefixLen := by
    rw [List.length_append, List.length_append, hsize]
  rw [hpre, hsuf, ← hscript]
  exact spellsCoinbase_of_length_eq (by omega) hpayout hcommitment

/-- An extended share never does. -/
theorem not_hashesCoinbase_of_extended (hs : s.Sized cfg)
    (hexit : s.conn.exit = none) (hextended : submission.isStandard = false)
    (hjob : s.feed.jobTable.get submission.fields.jobId = some job)
    (hfrom : job.ComesFrom template)
    (hbuilt : template.BuiltWith cfg.extranoncePrefixLen blockHeight aux) :
    ¬ s.HashesCoinbase sha cfg env submission
      (bip34HeightPush blockHeight ++ aux) := by
  rintro ⟨ch, job', extranonce, sent, hch, hjob', hextranonce, -, -, hspells⟩
  rw [hjob, Option.some.injEq] at hjob'
  subst hjob'
  obtain ⟨hlength, hpre, -⟩ := hfrom.halves hbuilt
  have hsize : cfg.extranoncePrefixLen + 4 ≤ extranonce.length ∧
      extranonce.length ≤ cfg.extranoncePrefixLen + 8 := by
    cases submission with
    | standard share => cases hextended
    | extended share =>
        exact length_extendedExtranonce (hs.channels hexit _ ch hch) hextranonce
  have hscript : (bip34HeightPush blockHeight ++ aux ++ extranonce).length =
      (bip34HeightPush blockHeight).length + aux.length + extranonce.length := by
    rw [List.length_append, List.length_append]
  have hcap : cfg.extranoncePrefixLen ≤ 8 := hs.prefixLen ▸ s.extranonceAlloc.le_eight
  rw [hpre] at hspells
  exact not_spellsCoinbase_of_length_ne (by omega) (by omega) (by omega) hspells

/-- In every run, a share accepted on a job of a template built for extranonces
of the prefix length hashes a real coinbase exactly when it was submitted as a
standard share. -/
theorem hashesCoinbase_iff_isStandard (sha : Bytes → Bytes32)
    (cfg : HandlerConfig) (htwo : 2 ≤ cfg.extranoncePrefixLen)
    (height : cfg.extranoncePrefixLen ≤ 8) (retentionMs : UInt64)
    (maxEntries : ℕ) (events : List SessionEvent) (s t : Session)
    (env : SubmitEnv) (submission : Submission) (difficulty : UInt64)
    (job : JobRecord) (template : TemplateResponse) (blockHeight : UInt32)
    (aux : Bytes)
    (hrun : run (step sha cfg) (initial cfg htwo height retentionMs maxEntries)
      events = some s)
    (hsubmit : s.step sha cfg (.submit env submission) = some t)
    (haccepted : (s.handleSubmission sha cfg env submission).2.reply =
      .ok difficulty)
    (hjob : s.feed.jobTable.get submission.fields.jobId = some job)
    (hfrom : job.ComesFrom template)
    (hbuilt : template.BuiltWith cfg.extranoncePrefixLen blockHeight aux) :
    s.HashesCoinbase sha cfg env submission (bip34HeightPush blockHeight ++ aux) ↔
      submission.isStandard = true := by
  have hs : s.Sized cfg := sized_of_run hrun
  have hexit : s.conn.exit = none := exit_of_submit hsubmit
  constructor
  · intro hhashes
    by_contra hextended
    rw [Bool.not_eq_true] at hextended
    exact not_hashesCoinbase_of_extended hs hexit hextended hjob hfrom hbuilt hhashes
  · intro hstandard
    exact hashesCoinbase_of_isStandard hs hexit hstandard haccepted hjob hfrom hbuilt

/-! ## A share of each kind -/

theorem regtest_builtWith : TemplateResponse.regtest.BuiltWith 4 1 [] :=
  ⟨5000000000, [0x51], none, _, rfl, by decide +kernel, by decide +kernel⟩

/-- Whether a share can be submitted and is accepted, and the job it is on. -/
def trySubmission (submission : Submission) (s : Session) :
    Bool × Bool × Option JobRecord :=
  ((s.step sha256 (.permissive 4) (.submit openQueues submission)).isSome,
    (s.handleSubmission sha256 (.permissive 4) openQueues submission).2.reply.isOk,
    s.feed.jobTable.get submission.fields.jobId)

theorem trySubmission_eq (events : List SessionEvent) (submission : Submission)
    (h : (run (step sha256 (.permissive 4)) fresh events).map
      (trySubmission submission) =
        some (true, true, jobFromTemplate wallClock 1 none .regtest)) :
    ∃ s t difficulty job,
      run (step sha256 (.permissive 4)) fresh events = some s ∧
      s.step sha256 (.permissive 4) (.submit openQueues submission) = some t ∧
      (s.handleSubmission sha256 (.permissive 4) openQueues submission).2.reply =
        .ok difficulty ∧
      s.feed.jobTable.get submission.fields.jobId = some job ∧
      job.ComesFrom .regtest := by
  obtain ⟨s, hrun, hs⟩ := Option.map_eq_some_iff.mp h
  simp only [trySubmission, Prod.mk.injEq] at hs
  obtain ⟨hstep, hok, hjob⟩ := hs
  obtain ⟨t, ht⟩ := Option.isSome_iff_exists.mp hstep
  obtain ⟨job, hsome⟩ : ∃ job, jobFromTemplate wallClock 1 none .regtest = some job :=
    Option.isSome_iff_exists.mp (by decide +kernel)
  cases hreply : (s.handleSubmission sha256 (.permissive 4) openQueues
      submission).2.reply with
  | error reason =>
      rw [hreply] at hok
      cases hok
  | ok difficulty =>
      exact ⟨s, t, difficulty, job, hrun, ht, hreply, hjob.trans hsome,
        (jobFromTemplate_eq_some hsome).1⟩

theorem hashesCoinbase_iff_isStandard_minedShare :
    ∃ s t difficulty job,
      run (step sha256 (.permissive 4)) fresh
        (openRun (.openStandard wallClock ⟨1, "miner"⟩)) = some s ∧
      s.step sha256 (.permissive 4) (.submit openQueues (.standard minedShare)) =
        some t ∧
      (s.handleSubmission sha256 (.permissive 4) openQueues
        (.standard minedShare)).2.reply = .ok difficulty ∧
      s.feed.jobTable.get 1 = some job ∧ job.ComesFrom .regtest ∧
      s.HashesCoinbase sha256 (.permissive 4) openQueues (.standard minedShare)
        [0x01, 0x01] := by
  obtain ⟨s, t, difficulty, job, hrun, hsubmit, haccepted, hjob, hfrom⟩ :=
    trySubmission_eq (openRun (.openStandard wallClock ⟨1, "miner"⟩))
      (.standard minedShare) (by decide +kernel)
  refine ⟨s, t, difficulty, job, hrun, hsubmit, haccepted, hjob, hfrom, ?_⟩
  exact (hashesCoinbase_iff_isStandard _ _ _ _ _ _ _ s t _ _ difficulty job .regtest
    1 [] hrun hsubmit haccepted hjob hfrom regtest_builtWith).mpr rfl

/-- On an extended channel granted four bytes beside its prefix, the share is
accepted, and what was hashed is no coinbase. -/
theorem not_hashesCoinbase_extended_share :
    ∃ s t difficulty job,
      run (step sha256 (.permissive 4)) fresh
        (openRun (.openExtended wallClock ⟨1, "miner", 4⟩)) = some s ∧
      s.step sha256 (.permissive 4)
        (.submit openQueues (.extended ⟨minedShare, [1, 2, 3, 4]⟩)) = some t ∧
      (s.handleSubmission sha256 (.permissive 4) openQueues
        (.extended ⟨minedShare, [1, 2, 3, 4]⟩)).2.reply = .ok difficulty ∧
      s.feed.jobTable.get 1 = some job ∧ job.ComesFrom .regtest ∧
      TemplateResponse.regtest.BuiltWith 4 1 [] ∧
      ¬ s.HashesCoinbase sha256 (.permissive 4) openQueues
        (.extended ⟨minedShare, [1, 2, 3, 4]⟩) [0x01, 0x01] := by
  obtain ⟨s, t, difficulty, job, hrun, hsubmit, haccepted, hjob, hfrom⟩ :=
    trySubmission_eq (openRun (.openExtended wallClock ⟨1, "miner", 4⟩))
      (.extended ⟨minedShare, [1, 2, 3, 4]⟩) (by decide +kernel)
  refine ⟨s, t, difficulty, job, hrun, hsubmit, haccepted, hjob, hfrom,
    regtest_builtWith, ?_⟩
  exact not_hashesCoinbase_of_extended (sized_of_run hrun)
    (exit_of_submit hsubmit) rfl hjob hfrom regtest_builtWith

end Session

end ReserveGrid.Gateway
