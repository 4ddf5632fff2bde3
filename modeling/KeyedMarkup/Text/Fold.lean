import KeyedMarkup.Text.Ranges

/-!
# Case folding

Full case folding, which makes texts that differ in case only equal: most characters fold to one
other character, at a fixed distance over long runs, and a few fold to two or three.
-/

namespace KeyedMarkup

/-- A run of characters that fold alike: first, last, step and distance. -/
private structure FoldRun where
  first : Nat
  last : Nat
  step : Nat
  distance : Nat

private def foldRunsOf (table : List String) : Array FoldRun :=
  ((itemsOf table).filterMap fun item =>
    match (item.splitOn "-").map hexValue with
    | [first, last, step, distance] => some ⟨first, last, step, distance⟩
    | _ => none).toArray

private def FoldRun.holds (r : FoldRun) (n : Nat) : Bool :=
  r.first ≤ n && n ≤ r.last && (n - r.first) % r.step == 0

private def upwardRuns : Array FoldRun := foldRunsOf
  ["b5-b5-1-307 c0-d6-1-20 d8-de-1-20 100-12e-2-1 132-136-2-1 139-147-2-1 14a-176-2-1 179-17d-2-1",
   "181-181-1-d2 182-184-2-1 186-186-1-ce 187-187-1-1 189-18a-1-cd 18b-18b-1-1 18e-18e-1-4f",
   "18f-18f-1-ca 190-190-1-cb 191-191-1-1 193-193-1-cd 194-194-1-cf 196-196-1-d3 197-197-1-d1",
   "198-198-1-1 19c-19c-1-d3 19d-19d-1-d5 19f-19f-1-d6 1a0-1a4-2-1 1a6-1a6-1-da 1a7-1a7-1-1",
   "1a9-1a9-1-da 1ac-1ac-1-1 1ae-1ae-1-da 1af-1af-1-1 1b1-1b2-1-d9 1b3-1b5-2-1 1b7-1b7-1-db",
   "1b8-1b8-1-1 1bc-1bc-1-1 1c4-1c4-1-2 1c5-1c5-1-1 1c7-1c7-1-2 1c8-1c8-1-1 1ca-1ca-1-2",
   "1cb-1db-2-1 1de-1ee-2-1 1f1-1f1-1-2 1f2-1f4-2-1 1f8-21e-2-1 222-232-2-1 23a-23a-1-2a2b",
   "23b-23b-1-1 23e-23e-1-2a28 241-241-1-1 244-244-1-45 245-245-1-47 246-24e-2-1 345-345-1-74",
   "370-372-2-1 376-376-1-1 37f-37f-1-74 386-386-1-26 388-38a-1-25 38c-38c-1-40 38e-38f-1-3f",
   "391-3a1-1-20 3a3-3ab-1-20 3c2-3c2-1-1 3cf-3cf-1-8 3d8-3ee-2-1 3f7-3f7-1-1 3fa-3fa-1-1",
   "400-40f-1-50 410-42f-1-20 460-480-2-1 48a-4be-2-1 4c0-4c0-1-f 4c1-4cd-2-1 4d0-52e-2-1",
   "531-556-1-30 10a0-10c5-1-1c60 10c7-10c7-1-1c60 10cd-10cd-1-1c60 1c88-1c88-1-89c3",
   "1e00-1e94-2-1 1ea0-1efe-2-1 2132-2132-1-1c 2160-216f-1-10 2183-2183-1-1 24b6-24cf-1-1a",
   "2c00-2c2f-1-30 2c60-2c60-1-1 2c67-2c6b-2-1 2c72-2c72-1-1 2c75-2c75-1-1 2c80-2ce2-2-1",
   "2ceb-2ced-2-1 2cf2-2cf2-1-1 a640-a66c-2-1 a680-a69a-2-1 a722-a72e-2-1 a732-a76e-2-1",
   "a779-a77b-2-1 a77e-a786-2-1 a78b-a78b-1-1 a790-a792-2-1 a796-a7a8-2-1 a7b3-a7b3-1-3a0",
   "a7b4-a7c2-2-1 a7c7-a7c9-2-1 a7d0-a7d0-1-1 a7d6-a7d8-2-1 a7f5-a7f5-1-1 ff21-ff3a-1-20",
   "10400-10427-1-28 104b0-104d3-1-28 10570-1057a-1-27 1057c-1058a-1-27 1058c-10592-1-27",
   "10594-10595-1-27 10c80-10cb2-1-40 118a0-118bf-1-20 16e40-16e5f-1-20 1e900-1e921-1-22"]

private def downwardRuns : Array FoldRun := foldRunsOf
  ["178-178-1-79 17f-17f-1-10c 1f6-1f6-1-61 1f7-1f7-1-38 220-220-1-82 23d-23d-1-a3 243-243-1-c3",
   "3d0-3d0-1-1e 3d1-3d1-1-19 3d5-3d5-1-f 3d6-3d6-1-16 3f0-3f0-1-36 3f1-3f1-1-30 3f4-3f4-1-3c",
   "3f5-3f5-1-40 3f9-3f9-1-7 3fd-3ff-1-82 13f8-13fd-1-8 1c80-1c80-1-184e 1c81-1c81-1-184d",
   "1c82-1c82-1-1844 1c83-1c84-1-1842 1c85-1c85-1-1843 1c86-1c86-1-183c 1c87-1c87-1-1824",
   "1c90-1cba-1-bc0 1cbd-1cbf-1-bc0 1e9b-1e9b-1-3a 1f08-1f0f-1-8 1f18-1f1d-1-8 1f28-1f2f-1-8",
   "1f38-1f3f-1-8 1f48-1f4d-1-8 1f59-1f5f-2-8 1f68-1f6f-1-8 1fb8-1fb9-1-8 1fba-1fbb-1-4a",
   "1fbe-1fbe-1-1c05 1fc8-1fcb-1-56 1fd8-1fd9-1-8 1fda-1fdb-1-64 1fe8-1fe9-1-8 1fea-1feb-1-70",
   "1fec-1fec-1-7 1ff8-1ff9-1-80 1ffa-1ffb-1-7e 2126-2126-1-1d5d 212a-212a-1-20bf",
   "212b-212b-1-2046 2c62-2c62-1-29f7 2c63-2c63-1-ee6 2c64-2c64-1-29e7 2c6d-2c6d-1-2a1c",
   "2c6e-2c6e-1-29fd 2c6f-2c6f-1-2a1f 2c70-2c70-1-2a1e 2c7e-2c7f-1-2a3f a77d-a77d-1-8a04",
   "a78d-a78d-1-a528 a7aa-a7aa-1-a544 a7ab-a7ab-1-a54f a7ac-a7ac-1-a54b a7ad-a7ad-1-a541",
   "a7ae-a7ae-1-a544 a7b0-a7b0-1-a512 a7b1-a7b1-1-a52a a7b2-a7b2-1-a515 a7c4-a7c4-1-30",
   "a7c5-a7c5-1-a543 a7c6-a7c6-1-8a38 ab70-abbf-1-97d0"]

private def longFolds : List (Nat × List Char) :=
  (itemsOf
  ["df-73-73 130-69-307 149-2bc-6e 1f0-6a-30c 390-3b9-308-301 3b0-3c5-308-301 587-565-582",
   "1e96-68-331 1e97-74-308 1e98-77-30a 1e99-79-30a 1e9a-61-2be 1e9e-73-73 1f50-3c5-313",
   "1f52-3c5-313-300 1f54-3c5-313-301 1f56-3c5-313-342 1f80-1f00-3b9 1f81-1f01-3b9 1f82-1f02-3b9",
   "1f83-1f03-3b9 1f84-1f04-3b9 1f85-1f05-3b9 1f86-1f06-3b9 1f87-1f07-3b9 1f88-1f00-3b9",
   "1f89-1f01-3b9 1f8a-1f02-3b9 1f8b-1f03-3b9 1f8c-1f04-3b9 1f8d-1f05-3b9 1f8e-1f06-3b9",
   "1f8f-1f07-3b9 1f90-1f20-3b9 1f91-1f21-3b9 1f92-1f22-3b9 1f93-1f23-3b9 1f94-1f24-3b9",
   "1f95-1f25-3b9 1f96-1f26-3b9 1f97-1f27-3b9 1f98-1f20-3b9 1f99-1f21-3b9 1f9a-1f22-3b9",
   "1f9b-1f23-3b9 1f9c-1f24-3b9 1f9d-1f25-3b9 1f9e-1f26-3b9 1f9f-1f27-3b9 1fa0-1f60-3b9",
   "1fa1-1f61-3b9 1fa2-1f62-3b9 1fa3-1f63-3b9 1fa4-1f64-3b9 1fa5-1f65-3b9 1fa6-1f66-3b9",
   "1fa7-1f67-3b9 1fa8-1f60-3b9 1fa9-1f61-3b9 1faa-1f62-3b9 1fab-1f63-3b9 1fac-1f64-3b9",
   "1fad-1f65-3b9 1fae-1f66-3b9 1faf-1f67-3b9 1fb2-1f70-3b9 1fb3-3b1-3b9 1fb4-3ac-3b9",
   "1fb6-3b1-342 1fb7-3b1-342-3b9 1fbc-3b1-3b9 1fc2-1f74-3b9 1fc3-3b7-3b9 1fc4-3ae-3b9",
   "1fc6-3b7-342 1fc7-3b7-342-3b9 1fcc-3b7-3b9 1fd2-3b9-308-300 1fd3-3b9-308-301 1fd6-3b9-342",
   "1fd7-3b9-308-342 1fe2-3c5-308-300 1fe3-3c5-308-301 1fe4-3c1-313 1fe6-3c5-342 1fe7-3c5-308-342",
   "1ff2-1f7c-3b9 1ff3-3c9-3b9 1ff4-3ce-3b9 1ff6-3c9-342 1ff7-3c9-342-3b9 1ffc-3c9-3b9 fb00-66-66",
   "fb01-66-69 fb02-66-6c fb03-66-66-69 fb04-66-66-6c fb05-73-74 fb06-73-74 fb13-574-576",
   "fb14-574-565 fb15-574-56b fb16-57e-576 fb17-574-56d"]).filterMap fun item =>
    match (item.splitOn "-").map hexValue with
    | n :: folded => some (n, folded.map Char.ofNat)
    | [] => none

/-- What a character folds to. -/
def foldChar (c : Char) : List Char :=
  let n := c.toNat
  if n < 0x80 then [c.toLower]
  else
    match longFolds.lookup n with
    | some folded => folded
    | none =>
        match upwardRuns.find? (·.holds n), downwardRuns.find? (·.holds n) with
        | some r, _ => [Char.ofNat (n + r.distance)]
        | none, some r => [Char.ofNat (n - r.distance)]
        | none, none => [c]

/-- The folded text. -/
def foldCase (cs : List Char) : List Char := cs.flatMap foldChar

end KeyedMarkup
