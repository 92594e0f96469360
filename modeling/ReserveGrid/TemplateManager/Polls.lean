import ReserveGrid.TemplateManager.Template

/-!
# Polls

The manager polls its source for as long as it runs. The source remembers the
fingerprint of an answer before it builds the template, and a build that fails
leaves that fingerprint behind: the next poll with the same answer gives
nothing, as if its template had been returned.
-/

namespace ReserveGrid.TemplateManager

open Support Bitcoin Consensus Protocol

/-! ## When a template is built -/

/-- The txids of an answer always form a merkle branch. -/
theorem parseTxids_displayHex (hashes : List Bytes32) :
    parseTxids (hashes.map displayHex) = .ok hashes := by
  induction hashes with
  | nil => rfl
  | cons h hashes ih =>
      rw [List.map_cons, parseTxids, displayHex, hexDecode_hexEncode]
      dsimp only
      rw [Bytes32.ofBytes_toBytes]
      dsimp only
      rw [ih, Bytes32.reverse_reverse]
      rfl

theorem computeMerkleBranch_txids (sha : Bytes → Bytes32)
    (tpl : GetBlockTemplateResult) :
    ∃ branch, computeMerkleBranch sha tpl.txids = .ok branch := by
  have htxids : tpl.txids = (tpl.transactions.map (·.txid)).map displayHex := by
    rw [GetBlockTemplateResult.txids, List.map_map]
    rfl
  rw [htxids, computeMerkleBranch, parseTxids_displayHex]
  split
  · exact ⟨[], rfl⟩
  · exact ⟨_, rfl⟩

namespace BitcoindTemplateSource

/-- The length of the coinbase script for an answer. -/
def scriptsigLen (source : BitcoindTemplateSource)
    (tpl : GetBlockTemplateResult) : ℕ :=
  (bip34HeightPush tpl.blockHeight).length + (coinbaseAux tpl.coinbaseaux).length +
    source.extranonceSize

/-- The build for an answer does not end in an error: the coinbase script fits,
and so does the commitment, unless the payout script panics before it. -/
def Buildable (source : BitcoindTemplateSource)
    (tpl : GetBlockTemplateResult) : Prop :=
  source.scriptsigLen tpl ≤ 100 ∧
    (source.coinbaseOutputScript.length < 253 →
      ∀ wc ∈ tpl.witnessCommitment, wc.length < 253)

section

variable {hasher : List HashWrite → UInt64} {btc : RustBitcoin}
variable {sha : Bytes → Bytes32} {nowUnixMs : UInt64}
variable {source : BitcoindTemplateSource} {tpl : GetBlockTemplateResult}
variable {coinbaseSigops : Option UInt32}

theorem coinbaseHalves_eq_error_iff :
    (∃ message, source.coinbaseHalves tpl = .error (.error message)) ↔
      ¬ source.Buildable tpl := by
  unfold coinbaseHalves buildCoinbaseHalves Buildable scriptsigLen
  dsimp only
  split
  · rename_i hlong
    simp [hlong]
  · rename_i hshort
    rw [not_not] at hshort
    rw [if_neg (by omega)]
    split
    · rename_i hpayout
      simp [hshort, hpayout]
    · rename_i hpayout
      rw [not_not] at hpayout
      cases tpl.witnessCommitment with
      | none => simp [hshort]
      | some wc => by_cases hwc : wc.length < 253 <;> simp [hshort, hpayout, hwc]

theorem buildTemplate_eq_error_iff :
    (∃ message, source.buildTemplate hasher btc sha nowUnixMs tpl
        coinbaseSigops = .error (.error message)) ↔
      ¬ source.Buildable tpl := by
  rw [← coinbaseHalves_eq_error_iff]
  obtain ⟨branch, hbranch⟩ := computeMerkleBranch_txids sha tpl
  unfold buildTemplate
  rw [hbranch]
  cases source.coinbaseHalves tpl <;> simp [Except.bind, Except.map]

end

end BitcoindTemplateSource

/-! ## A run of polls -/

/-- What a poll gets: the answer of the node and the time. -/
structure Poll where
  answer : Option (GetBlockTemplateResult × Option UInt32)
  nowUnixMs : UInt64

/-- A poll with the source before and after it. -/
structure PollRecord where
  before : BitcoindTemplateSource
  poll : Poll
  result : Except Failure (Option (TemplatePropose × GbtExtras))
  after : BitcoindTemplateSource

section

variable (hasher : List HashWrite → UInt64)

namespace PollRecord

/-- The fingerprint of the template that the poll returned, if it returned
one. -/
def returned (r : PollRecord) : Option TemplateFingerprint :=
  match r.result, r.poll.answer with
  | .ok (some _), some (tpl, _) => some (fingerprint hasher tpl)
  | _, _ => none

/-- The build that the poll makes, if any, does not end in an error. -/
def Buildable (r : PollRecord) : Prop :=
  ∀ tpl coinbaseSigops, r.poll.answer = some (tpl, coinbaseSigops) →
    r.before.lastFp = some (fingerprint hasher tpl) ∨ r.before.Buildable tpl

/-- A failed poll leaves the last fingerprint alone, and an answer that gives
nothing has the fingerprint of the template returned last. -/
structure Retried (last : Option TemplateFingerprint) (r : PollRecord) :
    Prop where
  kept : ∀ message, r.result = .error (.error message) →
    r.after.lastFp = r.before.lastFp
  delivered : r.result = .ok none → ∀ tpl coinbaseSigops,
    r.poll.answer = some (tpl, coinbaseSigops) →
      last = some (fingerprint hasher tpl)

end PollRecord

/-- Every poll of a run is retried, with the fingerprint of the template
returned last. -/
def Retried (last : Option TemplateFingerprint) : List PollRecord → Prop
  | [] => True
  | r :: rs => r.Retried hasher last ∧ Retried ((r.returned hasher).or last) rs

variable (btc : RustBitcoin) (sha : Bytes → Bytes32)

def pollOnce (source : BitcoindTemplateSource) (poll : Poll) : PollRecord :=
  let next := source.nextTemplate hasher btc sha poll.nowUnixMs poll.answer
  ⟨source, poll, next.1, next.2⟩

/-- The polls one after the other. A panic ends the loop. -/
def pollRun (source : BitcoindTemplateSource) : List Poll → List PollRecord
  | [] => []
  | poll :: polls =>
      let record := pollOnce hasher btc sha source poll
      record ::
        match record.result with
        | .error (.panicked _) => []
        | _ => pollRun record.after polls

end

section

variable {hasher : List HashWrite → UInt64} {btc : RustBitcoin}
variable {sha : Bytes → Bytes32}

/-- What one poll does. -/
theorem pollOnce_cases {source : BitcoindTemplateSource} {poll : Poll}
    {r : PollRecord} (hr : r = pollOnce hasher btc sha source poll) :
    (poll.answer = none ∧ r.result = .ok none ∧ r.after.lastFp = source.lastFp) ∨
    (∃ tpl coinbaseSigops, poll.answer = some (tpl, coinbaseSigops) ∧
      source.lastFp = some (fingerprint hasher tpl) ∧
      r.result = .ok none ∧ r.after.lastFp = source.lastFp) ∨
    (∃ tpl coinbaseSigops, poll.answer = some (tpl, coinbaseSigops) ∧
      source.lastFp ≠ some (fingerprint hasher tpl) ∧
      r.result = (source.buildTemplate hasher btc sha poll.nowUnixMs tpl
        coinbaseSigops).map some ∧
      r.after.lastFp = some (fingerprint hasher tpl)) := by
  subst hr
  obtain ⟨answer, nowUnixMs⟩ := poll
  cases answer with
  | none => exact .inl ⟨rfl, rfl, rfl⟩
  | some got =>
      obtain ⟨tpl, coinbaseSigops⟩ := got
      by_cases hsame : source.lastFp = some (fingerprint hasher tpl)
      · refine .inr (.inl ⟨tpl, coinbaseSigops, rfl, hsame, ?_⟩)
        simp [pollOnce, BitcoindTemplateSource.nextTemplate, hsame]
      · refine .inr (.inr ⟨tpl, coinbaseSigops, rfl, hsame, ?_⟩)
        simp [pollOnce, BitcoindTemplateSource.nextTemplate, hsame]

variable {source : BitcoindTemplateSource} {poll : Poll} {r : PollRecord}

theorem PollRecord.Retried.buildable (hr : r = pollOnce hasher btc sha source poll)
    (h : r.Retried hasher source.lastFp) : r.Buildable hasher := by
  intro tpl sigops hanswer
  have hpoll : r.poll = poll := by rw [hr]; rfl
  have hbefore : r.before = source := by rw [hr]; rfl
  rw [hpoll] at hanswer
  rw [hbefore]
  obtain ⟨hnone, -, -⟩ | ⟨tpl', sigops', hsome, hsame, -, -⟩ |
    ⟨tpl', sigops', hsome, hnew, hresult, hafter⟩ := pollOnce_cases hr
  · rw [hnone] at hanswer
    cases hanswer
  · rw [hsome] at hanswer
    cases hanswer
    exact .inl hsame
  · rw [hsome] at hanswer
    cases hanswer
    refine .inr ?_
    by_contra hnot
    obtain ⟨message, herror⟩ :=
      BitcoindTemplateSource.buildTemplate_eq_error_iff.mpr hnot
    -- The failed build would have had to leave the fingerprint alone.
    have hkept := h.kept message (hresult.trans (by rw [herror]; rfl))
    rw [hafter, hbefore] at hkept
    exact hnew hkept.symm

theorem PollRecord.Buildable.retried (hr : r = pollOnce hasher btc sha source poll)
    (h : r.Buildable hasher) : r.Retried hasher source.lastFp := by
  have hpoll : r.poll = poll := by rw [hr]; rfl
  have hbefore : r.before = source := by rw [hr]; rfl
  obtain ⟨hnone, hresult, -⟩ | ⟨tpl, sigops, hsome, hsame, hresult, -⟩ |
    ⟨tpl, sigops, hsome, hnew, hresult, -⟩ := pollOnce_cases hr
  · refine ⟨fun message herror => ?_, fun _ tpl sigops hanswer => ?_⟩
    · rw [hresult] at herror
      cases herror
    · rw [hpoll, hnone] at hanswer
      cases hanswer
  · refine ⟨fun message herror => ?_, fun _ tpl' sigops' hanswer => ?_⟩
    · rw [hresult] at herror
      cases herror
    · rw [hpoll, hsome] at hanswer
      cases hanswer
      exact hsame
  · refine ⟨fun message herror => ?_, fun hsilent => ?_⟩
    · rw [hresult, Result.map_eq_error] at herror
      have hnot := BitcoindTemplateSource.buildTemplate_eq_error_iff.mp
        ⟨message, herror⟩
      obtain hsame | hbuildable := h tpl sigops (hpoll ▸ hsome)
      · exact absurd (hbefore ▸ hsame) hnew
      · exact absurd (hbefore ▸ hbuildable) hnot
    · rw [hresult, Result.map_eq_ok] at hsilent
      obtain ⟨_, _, hcontra⟩ := hsilent
      cases hcontra

/-- After a poll without a failure, the source remembers the fingerprint of
the template that was returned last. -/
theorem lastFp_of_retried (hr : r = pollOnce hasher btc sha source poll)
    (h : r.Retried hasher source.lastFp)
    (hgoes : ∀ message, r.result ≠ .error (.panicked message)) :
    r.after.lastFp = (r.returned hasher).or source.lastFp := by
  have hpoll : r.poll = poll := by rw [hr]; rfl
  have hbefore : r.before = source := by rw [hr]; rfl
  obtain ⟨-, hresult, hafter⟩ | ⟨tpl, sigops, hsome, -, hresult, hafter⟩ |
    ⟨tpl, sigops, hsome, -, hresult, hafter⟩ := pollOnce_cases hr
  · rw [hafter, PollRecord.returned, hresult]
    rfl
  · rw [hafter, PollRecord.returned, hresult]
    rfl
  · cases hbuilt : source.buildTemplate hasher btc sha poll.nowUnixMs tpl sigops with
    | ok built =>
        rw [hbuilt] at hresult
        rw [hafter, PollRecord.returned, hresult, hpoll, hsome]
        rfl
    | error failure =>
        rw [hbuilt] at hresult
        cases failure with
        | panicked message => exact absurd hresult (hgoes message)
        | error message =>
            rw [h.kept message hresult, hbefore, PollRecord.returned, hresult]
            rfl

theorem pollRun_cons (source : BitcoindTemplateSource) (poll : Poll)
    (polls : List Poll) :
    pollRun hasher btc sha source (poll :: polls) =
      pollOnce hasher btc sha source poll ::
        match (pollOnce hasher btc sha source poll).result with
        | .error (.panicked _) => []
        | _ => pollRun hasher btc sha
            (pollOnce hasher btc sha source poll).after polls :=
  rfl

/-- In a run of polls, every failed poll leaves the last fingerprint alone and
no answer is passed over unless the template returned last has its fingerprint,
if and only if no poll's build ends in an error. -/
theorem retried_pollRun_iff (hasher : List HashWrite → UInt64)
    (btc : RustBitcoin) (sha : Bytes → Bytes32) (source : BitcoindTemplateSource)
    (polls : List Poll) :
    Retried hasher source.lastFp (pollRun hasher btc sha source polls) ↔
      ∀ r ∈ pollRun hasher btc sha source polls, r.Buildable hasher := by
  induction polls generalizing source with
  | nil => simp [pollRun, Retried]
  | cons poll polls ih =>
      generalize hr : pollOnce hasher btc sha source poll = r
      have hhead : r.Retried hasher source.lastFp ↔ r.Buildable hasher :=
        ⟨fun h => h.buildable hr.symm, fun h => h.retried hr.symm⟩
      rw [pollRun_cons, hr, Retried, List.forall_mem_cons, hhead]
      refine and_congr_right fun hbuildable => ?_
      split
      · simp [Retried]
      · rename_i hgoes
        rw [← lastFp_of_retried hr.symm (hhead.mpr hbuildable) hgoes]
        exact ih r.after

end

/-- An answer whose commitment script is too long for its length byte. -/
def wideCommitmentAnswer : GetBlockTemplateResult where
  version := 0x20000000
  previousBlockHash := Bytes32.zero
  transactions := []
  coinbaseaux := ∅
  coinbaseValue := 312500000
  defaultWitnessCommitment := List.replicate 253 0x6a
  height := 840000
  bits := [0x17, 0x03, 0x42, 0x19]
  currentTime := 1713571767
  minTime := 1713571000

/-- A source that has not been polled. -/
def freshSource : BitcoindTemplateSource where
  lastFp := none
  hadRpcError := false
  coinbaseOutputScript := [0x51]
  extranonceSize := 8

theorem freshSource_coinbaseHalves :
    freshSource.coinbaseHalves wideCommitmentAnswer = .error (.error
      "witness commitment script too large for single-byte varint: 253") := by
  decide +kernel

/-- The first poll fails, and the second passes the same answer over although
no template was ever returned. -/
theorem not_retried_wideCommitment :
    (pollRun (fun _ => 0) (RustBitcoin.reference sha256) sha256 freshSource
        [⟨some (wideCommitmentAnswer, none), 0⟩,
          ⟨some (wideCommitmentAnswer, none), 1⟩]).map (·.result) =
      [.error (.error
          "witness commitment script too large for single-byte varint: 253"),
        .ok none] ∧
    ¬ Retried (fun _ => 0) none
      (pollRun (fun _ => 0) (RustBitcoin.reference sha256) sha256 freshSource
        [⟨some (wideCommitmentAnswer, none), 0⟩,
          ⟨some (wideCommitmentAnswer, none), 1⟩]) := by
  generalize hfp : fingerprint (fun _ => 0) wideCommitmentAnswer = fp
  have hrun : pollRun (fun _ => 0) (RustBitcoin.reference sha256) sha256
      freshSource [⟨some (wideCommitmentAnswer, none), 0⟩,
        ⟨some (wideCommitmentAnswer, none), 1⟩] =
      [⟨freshSource, ⟨some (wideCommitmentAnswer, none), 0⟩, .error (.error
          "witness commitment script too large for single-byte varint: 253"),
          { freshSource with lastFp := some fp }⟩,
        ⟨{ freshSource with lastFp := some fp },
          ⟨some (wideCommitmentAnswer, none), 1⟩, .ok none,
          { freshSource with lastFp := some fp }⟩] := by
    simp [pollRun, pollOnce, BitcoindTemplateSource.nextTemplate,
      BitcoindTemplateSource.buildTemplate, freshSource_coinbaseHalves, hfp,
      Except.bind, Except.map]
    simp [freshSource]
  rw [hrun]
  refine ⟨rfl, ?_⟩
  rintro ⟨-, ⟨-, hdelivered⟩, -⟩
  have hlast := hdelivered rfl wideCommitmentAnswer none rfl
  cases hlast

end ReserveGrid.TemplateManager
