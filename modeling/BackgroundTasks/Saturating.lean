/-!
# Saturating words

Times and delays are 64-bit counts of milliseconds, retry counters are 32-bit. Their sums,
differences and products stop at the ends of the range instead of wrapping around, and each
operation is pinned down by what it does to the numbers behind the words.
-/

namespace BackgroundTasks

/-- The latest moment and the longest delay a word can hold. -/
def maxMillis : UInt64 := 18446744073709551615

/-- The sum, or the largest word when it does not fit. -/
def satAdd (a b : UInt64) : UInt64 := UInt64.ofNat (min (a.toNat + b.toNat) maxMillis.toNat)

/-- The product, or the largest word when it does not fit. -/
def satMul (a b : UInt64) : UInt64 := UInt64.ofNat (min (a.toNat * b.toNat) maxMillis.toNat)

/-- The difference, or zero when it would be negative. -/
def satSub (a b : UInt64) : UInt64 := UInt64.ofNat (a.toNat - b.toNat)

/-- The largest value of a counter. -/
def maxCount : UInt32 := 4294967295

/-- The next counter value; the largest one is its own successor. -/
def satSucc (n : UInt32) : UInt32 := if n = maxCount then n else n + 1

theorem toNat_satAdd (a b : UInt64) :
    (satAdd a b).toNat = min (a.toNat + b.toNat) maxMillis.toNat := by
  have h : maxMillis.toNat = 18446744073709551615 := rfl
  simp only [satAdd, h, UInt64.toNat_ofNat']
  omega

theorem toNat_satMul (a b : UInt64) :
    (satMul a b).toNat = min (a.toNat * b.toNat) maxMillis.toNat := by
  have h : maxMillis.toNat = 18446744073709551615 := rfl
  simp only [satMul, h, UInt64.toNat_ofNat']
  omega

theorem toNat_satSub (a b : UInt64) : (satSub a b).toNat = a.toNat - b.toNat := by
  have h := a.toNat_lt
  simp only [satSub, UInt64.toNat_ofNat']
  omega

theorem toNat_satSucc (n : UInt32) : (satSucc n).toNat = min (n.toNat + 1) maxCount.toNat := by
  have h := n.toNat_lt
  by_cases hn : n = maxCount
  · subst hn
    rfl
  · have hne : n.toNat ≠ maxCount.toNat := fun hc => hn (UInt32.toNat_inj.1 hc)
    have hmax : maxCount.toNat = 4294967295 := rfl
    simp only [satSucc, if_neg hn, UInt32.toNat_add]
    have h1 : (1 : UInt32).toNat = 1 := rfl
    omega

end BackgroundTasks
