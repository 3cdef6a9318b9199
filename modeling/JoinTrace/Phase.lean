import JoinTrace.Named

namespace JoinTrace

inductive Phase where
  | init | mark | plan | relocate | compact | sweep | heapVerify | postGc
  deriving DecidableEq

namespace Phase

def all : List Phase := [.init, .mark, .plan, .relocate, .compact, .sweep, .heapVerify, .postGc]

def name : Phase → String
  | .init => "init"
  | .mark => "mark"
  | .plan => "plan"
  | .relocate => "relocate"
  | .compact => "compact"
  | .sweep => "sweep"
  | .heapVerify => "heap_verify"
  | .postGc => "post_gc"

def label : Phase → String
  | .init => "Init"
  | .mark => "Mark"
  | .plan => "Plan"
  | .relocate => "Relocate"
  | .compact => "Compact"
  | .sweep => "Sweep"
  | .heapVerify => "HeapVerify"
  | .postGc => "PostGc"

def rank : Phase → Nat
  | .init => 0
  | .mark => 1
  | .plan => 2
  | .relocate => 3
  | .compact => 4
  | .sweep => 5
  | .heapVerify => 6
  | .postGc => 7

theorem mem_all (phase : Phase) : phase ∈ all := by cases phase <;> decide

theorem rank_inj {a b : Phase} (same : a.rank = b.rank) : a = b := by
  cases a <;> cases b <;> simp [rank] at same ⊢

end Phase

instance : Named Phase := ⟨Phase.all,Phase.name⟩

instance : Ranked Phase := ⟨Phase.rank,Phase.rank_inj⟩

end JoinTrace
