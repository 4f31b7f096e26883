import RamlBuild.Text.CodeTable

/-!
# Code points in domain names

Beyond ASCII, the tables tell which characters a domain name can be given with and what becomes of
them in its written form: letters in lower case, wide and other variant forms as the plain ones, and
signs that do not show as nothing. What is in the first table and not in the second stays as it is.
The other tables tell how characters go together in a name; what no name holds may be in them.

## Main definitions

* `Domain.known`, `Domain.images` — the characters, and what becomes of them
* `Domain.marks`, `Domain.nonspacing` — characters that belong to the one before them
* `Domain.rightToLeft`, `Domain.neutral` — directions
* `Domain.joiningLeft`, `Domain.joiningRight` — letters that join
-/

namespace RamlBuild.Domain

open Text

/-- Characters that a domain name can be given with. -/
def known : CodeTable := .ofRows [
  "a0-377 37a-37f 384-38a 38c 38e-3a1 3a3-52f 531-556 559-58a 58d-58f 591-5c7 5d0-5ea 5ef-5f4",
  "606-61b 61d-6dc 6de-70d 710-74a 74d-7b1 7c0-7fa 7fd-82d 830-83e 840-85b 85e 860-86a 870-88f",
  "897-8e1 8e3-983 985-98c 98f-990 993-9a8 9aa-9b0 9b2 9b6-9b9 9bc-9c4 9c7-9c8 9cb-9ce 9d7",
  "9dc-9dd 9df-9e3 9e6-9fe a01-a03 a05-a0a a0f-a10 a13-a28 a2a-a30 a32-a33 a35-a36 a38-a39 a3c",
  "a3e-a42 a47-a48 a4b-a4d a51 a59-a5c a5e a66-a76 a81-a83 a85-a8d a8f-a91 a93-aa8 aaa-ab0",
  "ab2-ab3 ab5-ab9 abc-ac5 ac7-ac9 acb-acd ad0 ae0-ae3 ae6-af1 af9-aff b01-b03 b05-b0c b0f-b10",
  "b13-b28 b2a-b30 b32-b33 b35-b39 b3c-b44 b47-b48 b4b-b4d b55-b57 b5c-b5d b5f-b63 b66-b77",
  "b82-b83 b85-b8a b8e-b90 b92-b95 b99-b9a b9c b9e-b9f ba3-ba4 ba8-baa bae-bb9 bbe-bc2 bc6-bc8",
  "bca-bcd bd0 bd7 be6-bfa c00-c0c c0e-c10 c12-c28 c2a-c39 c3c-c44 c46-c48 c4a-c4d c55-c56",
  "c58-c5a c5c-c5d c60-c63 c66-c6f c77-c8c c8e-c90 c92-ca8 caa-cb3 cb5-cb9 cbc-cc4 cc6-cc8",
  "cca-ccd cd5-cd6 cdc-cde ce0-ce3 ce6-cef cf1-cf3 d00-d0c d0e-d10 d12-d44 d46-d48 d4a-d4f",
  "d54-d63 d66-d7f d81-d83 d85-d96 d9a-db1 db3-dbb dbd dc0-dc6 dca dcf-dd4 dd6 dd8-ddf de6-def",
  "df2-df4 e01-e3a e3f-e5b e81-e82 e84 e86-e8a e8c-ea3 ea5 ea7-ebd ec0-ec4 ec6 ec8-ece ed0-ed9",
  "edc-edf f00-f47 f49-f6c f71-f97 f99-fbc fbe-fcc fce-fda 1000-10c5 10c7 10cd 10d0-1248",
  "124a-124d 1250-1256 1258 125a-125d 1260-1288 128a-128d 1290-12b0 12b2-12b5 12b8-12be 12c0",
  "12c2-12c5 12c8-12d6 12d8-1310 1312-1315 1318-135a 135d-137c 1380-1399 13a0-13f5 13f8-13fd",
  "1400-167f 1681-169c 16a0-16f8 1700-1715 171f-1736 1740-1753 1760-176c 176e-1770 1772-1773",
  "1780-17dd 17e0-17e9 17f0-17f9 1800-1819 1820-1878 1880-18aa 18b0-18f5 1900-191e 1920-192b",
  "1930-193b 1940 1944-196d 1970-1974 1980-19ab 19b0-19c9 19d0-19da 19de-1a1b 1a1e-1a5e 1a60-1a7c",
  "1a7f-1a89 1a90-1a99 1aa0-1aad 1ab0-1add 1ae0-1aeb 1b00-1b4c 1b4e-1bf3 1bfc-1c37 1c3b-1c49",
  "1c4d-1c8a 1c90-1cba 1cbd-1cc7 1cd0-1cfa 1d00-1f15 1f18-1f1d 1f20-1f45 1f48-1f4d 1f50-1f57 1f59",
  "1f5b 1f5d 1f5f-1f7d 1f80-1fb4 1fb6-1fc4 1fc6-1fd3 1fd6-1fdb 1fdd-1fef 1ff2-1ff4 1ff6-1ffe",
  "2000-200d 2010-2023 2027 202f-2064 206a-2071 2074-208e 2090-209c 20a0-20c1 20d0-20f0 2100-218b",
  "2190-2429 2440-244a 2460-2487 249c-2b73 2b76-2cf3 2cf9-2d25 2d27 2d2d 2d30-2d67 2d6f-2d70",
  "2d7f-2d96 2da0-2da6 2da8-2dae 2db0-2db6 2db8-2dbe 2dc0-2dc6 2dc8-2dce 2dd0-2dd6 2dd8-2dde",
  "2de0-2e5d 2e80-2e99 2e9b-2ef3 2f00-2fd5 3000-303f 3041-3096 3099-30ff 3105-312f 3131-318e",
  "3190-31e5 31f0-321e 3220-33c1 33c3-33c6 33c8-33d7 33d9-a48c a490-a4c6 a4d0-a62b a640-a6f7",
  "a700-a7dc a7f1-a82c a830-a839 a840-a877 a880-a8c5 a8ce-a8d9 a8e0-a953 a95f-a97c a980-a9cd",
  "a9cf-a9d9 a9de-a9fe aa00-aa36 aa40-aa4d aa50-aa59 aa5c-aac2 aadb-aaf6 ab01-ab06 ab09-ab0e",
  "ab11-ab16 ab20-ab26 ab28-ab2e ab30-ab6b ab70-abed abf0-abf9 ac00-d7a3 d7b0-d7c6 d7cb-d7fb",
  "f900-fa6d fa70-fad9 fb00-fb06 fb13-fb17 fb1d-fb36 fb38-fb3c fb3e fb40-fb41 fb43-fb44 fb46-fdcf",
  "fdf0-fe11 fe13-fe18 fe20-fe2f fe31-fe51 fe54-fe66 fe68-fe6b fe70-fe74 fe76-fefc feff ff01-ffbe",
  "ffc2-ffc7 ffca-ffcf ffd2-ffd7 ffda-ffdc ffe0-ffe6 ffe8-ffee 10000-1000b 1000d-10026",
  "10028-1003a 1003c-1003d 1003f-1004d 10050-1005d 10080-100fa 10100-10102 10107-10133",
  "10137-1018e 10190-1019c 101a0 101d0-101fd 10280-1029c 102a0-102d0 102e0-102fb 10300-10323",
  "1032d-1034a 10350-1037a 10380-1039d 1039f-103c3 103c8-103d5 10400-1049d 104a0-104a9",
  "104b0-104d3 104d8-104fb 10500-10527 10530-10563 1056f-1057a 1057c-1058a 1058c-10592",
  "10594-10595 10597-105a1 105a3-105b1 105b3-105b9 105bb-105bc 105c0-105f3 10600-10736",
  "10740-10755 10760-10767 10780-10785 10787-107b0 107b2-107ba 10800-10805 10808 1080a-10835",
  "10837-10838 1083c 1083f-10855 10857-1089e 108a7-108af 108e0-108f2 108f4-108f5 108fb-1091b",
  "1091f-10939 1093f-10959 10980-109b7 109bc-109cf 109d2-10a03 10a05-10a06 10a0c-10a13",
  "10a15-10a17 10a19-10a35 10a38-10a3a 10a3f-10a48 10a50-10a58 10a60-10a9f 10ac0-10ae6",
  "10aeb-10af6 10b00-10b35 10b39-10b55 10b58-10b72 10b78-10b91 10b99-10b9c 10ba9-10baf",
  "10c00-10c48 10c80-10cb2 10cc0-10cf2 10cfa-10d27 10d30-10d39 10d40-10d65 10d69-10d85",
  "10d8e-10d8f 10e60-10e7e 10e80-10ea9 10eab-10ead 10eb0-10eb1 10ec2-10ec7 10ed0-10ed8",
  "10efa-10f27 10f30-10f59 10f70-10f89 10fb0-10fcb 10fe0-10ff6 11000-1104d 11052-11075",
  "1107f-110bc 110be-110c2 110d0-110e8 110f0-110f9 11100-11134 11136-11147 11150-11176",
  "11180-111df 111e1-111f4 11200-11211 11213-11241 11280-11286 11288 1128a-1128d 1128f-1129d",
  "1129f-112a9 112b0-112ea 112f0-112f9 11300-11303 11305-1130c 1130f-11310 11313-11328",
  "1132a-11330 11332-11333 11335-11339 1133b-11344 11347-11348 1134b-1134d 11350 11357",
  "1135d-11363 11366-1136c 11370-11374 11380-11389 1138b 1138e 11390-113b5 113b7-113c0 113c2",
  "113c5 113c7-113ca 113cc-113d5 113d7-113d8 113e1-113e2 11400-1145b 1145d-11461 11480-114c7",
  "114d0-114d9 11580-115b5 115b8-115dd 11600-11644 11650-11659 11660-1166c 11680-116b9",
  "116c0-116c9 116d0-116e3 11700-1171a 1171d-1172b 11730-11746 11800-1183b 118a0-118f2",
  "118ff-11906 11909 1190c-11913 11915-11916 11918-11935 11937-11938 1193b-11946 11950-11959",
  "119a0-119a7 119aa-119d7 119da-119e4 11a00-11a47 11a50-11aa2 11ab0-11af8 11b00-11b09",
  "11b60-11b67 11bc0-11be1 11bf0-11bf9 11c00-11c08 11c0a-11c36 11c38-11c45 11c50-11c6c",
  "11c70-11c8f 11c92-11ca7 11ca9-11cb6 11d00-11d06 11d08-11d09 11d0b-11d36 11d3a 11d3c-11d3d",
  "11d3f-11d47 11d50-11d59 11d60-11d65 11d67-11d68 11d6a-11d8e 11d90-11d91 11d93-11d98",
  "11da0-11da9 11db0-11ddb 11de0-11de9 11ee0-11ef8 11f00-11f10 11f12-11f3a 11f3e-11f5a 11fb0",
  "11fc0-11ff1 11fff-12399 12400-1246e 12470-12474 12480-12543 12f90-12ff2 13000-1342f",
  "13440-13455 13460-143fa 14400-14646 16100-16139 16800-16a38 16a40-16a5e 16a60-16a69",
  "16a6e-16abe 16ac0-16ac9 16ad0-16aed 16af0-16af5 16b00-16b45 16b50-16b59 16b5b-16b61",
  "16b63-16b77 16b7d-16b8f 16d40-16d79 16e40-16e9a 16ea0-16eb8 16ebb-16ed3 16f00-16f4a",
  "16f4f-16f87 16f8f-16f9f 16fe0-16fe4 16ff0-16ff6 17000-18cd5 18cff-18d1e 18d80-18df2",
  "1aff0-1aff3 1aff5-1affb 1affd-1affe 1b000-1b122 1b132 1b150-1b152 1b155 1b164-1b167",
  "1b170-1b2fb 1bc00-1bc6a 1bc70-1bc7c 1bc80-1bc88 1bc90-1bc99 1bc9c-1bca3 1cc00-1ccfc",
  "1cd00-1ceb3 1ceba-1ced0 1cee0-1cef0 1cf00-1cf2d 1cf30-1cf46 1cf50-1cfc3 1d000-1d0f5",
  "1d100-1d126 1d129-1d1ea 1d200-1d245 1d2c0-1d2d3 1d2e0-1d2f3 1d300-1d356 1d360-1d378",
  "1d400-1d454 1d456-1d49c 1d49e-1d49f 1d4a2 1d4a5-1d4a6 1d4a9-1d4ac 1d4ae-1d4b9 1d4bb",
  "1d4bd-1d4c3 1d4c5-1d505 1d507-1d50a 1d50d-1d514 1d516-1d51c 1d51e-1d539 1d53b-1d53e",
  "1d540-1d544 1d546 1d54a-1d550 1d552-1d6a5 1d6a8-1d7cb 1d7ce-1da8b 1da9b-1da9f 1daa1-1daaf",
  "1df00-1df1e 1df25-1df2a 1e000-1e006 1e008-1e018 1e01b-1e021 1e023-1e024 1e026-1e02a",
  "1e030-1e06d 1e08f 1e100-1e12c 1e130-1e13d 1e140-1e149 1e14e-1e14f 1e290-1e2ae 1e2c0-1e2f9",
  "1e2ff 1e4d0-1e4f9 1e5d0-1e5fa 1e5ff 1e6c0-1e6de 1e6e0-1e6f5 1e6fe-1e6ff 1e7e0-1e7e6",
  "1e7e8-1e7eb 1e7ed-1e7ee 1e7f0-1e7fe 1e800-1e8c4 1e8c7-1e8d6 1e900-1e94b 1e950-1e959",
  "1e95e-1e95f 1ec71-1ecb4 1ed01-1ed3d 1ee00-1ee03 1ee05-1ee1f 1ee21-1ee22 1ee24 1ee27",
  "1ee29-1ee32 1ee34-1ee37 1ee39 1ee3b 1ee42 1ee47 1ee49 1ee4b 1ee4d-1ee4f 1ee51-1ee52 1ee54",
  "1ee57 1ee59 1ee5b 1ee5d 1ee5f 1ee61-1ee62 1ee64 1ee67-1ee6a 1ee6c-1ee72 1ee74-1ee77",
  "1ee79-1ee7c 1ee7e 1ee80-1ee89 1ee8b-1ee9b 1eea1-1eea3 1eea5-1eea9 1eeab-1eebb 1eef0-1eef1",
  "1f000-1f02b 1f030-1f093 1f0a0-1f0ae 1f0b1-1f0bf 1f0c1-1f0cf 1f0d1-1f0f5 1f101-1f1ad",
  "1f1e6-1f202 1f210-1f23b 1f240-1f248 1f250-1f251 1f260-1f265 1f300-1f6d8 1f6dc-1f6ec",
  "1f6f0-1f6fc 1f700-1f7d9 1f7e0-1f7eb 1f7f0 1f800-1f80b 1f810-1f847 1f850-1f859 1f860-1f887",
  "1f890-1f8ad 1f8b0-1f8bb 1f8c0-1f8c1 1f8d0-1f8d8 1f900-1fa57 1fa60-1fa6d 1fa70-1fa7c",
  "1fa80-1fa8a 1fa8e-1fac6 1fac8 1facd-1fadc 1fadf-1faea 1faef-1faf8 1fb00-1fb92 1fb94-1fbfa",
  "20000-2a6df 2a700-2b81d 2b820-2cead 2ceb0-2ebe0 2ebf0-2ee5d 2f800-2fa1d 30000-3134a",
  "31350-33479 e0100-e01ef"]

/-- Characters that are replaced, by these. -/
def images : CodeTable := .ofRows [
  "a0=20 a8=20+308 aa=61 ad= af=20+304 b2-b5=32,33,20+301,3bc b8-ba=20+327,31,6f",
  "bc-be=31+2044+34,31+2044+32,33+2044+34",
  "c0-d6=e0,e1,e2,e3,e4,e5,e6,e7,e8,e9,ea,eb,ec,ed,ee,ef,f0,f1,f2,f3,f4,f5,f6",
  "d8-de=f8,f9,fa,fb,fc,fd,fe 100=101 102=103 104=105 106=107 108=109 10a=10b 10c=10d 10e=10f",
  "110=111 112=113 114=115 116=117 118=119 11a=11b 11c=11d 11e=11f 120=121 122=123 124=125",
  "126=127 128=129 12a=12b 12c=12d 12e=12f 130=69+307 132-134=69+6a,69+6a,135 136=137 139=13a",
  "13b=13c 13d=13e 13f-141=6c+b7,6c+b7,142 143=144 145=146 147=148 149-14a=2bc+6e,14b 14c=14d",
  "14e=14f 150=151 152=153 154=155 156=157 158=159 15a=15b 15c=15d 15e=15f 160=161 162=163",
  "164=165 166=167 168=169 16a=16b 16c=16d 16e=16f 170=171 172=173 174=175 176=177 178-179=ff,17a",
  "17b=17c 17d=17e 17f=73 181-182=253,183 184=185 186-187=254,188 189-18b=256,257,18c",
  "18e-191=1dd,259,25b,192 193-194=260,263 196-198=269,268,199 19c-19d=26f,272 19f-1a0=275,1a1",
  "1a2=1a3 1a4=1a5 1a6-1a7=280,1a8 1a9=283 1ac=1ad 1ae-1af=288,1b0 1b1-1b3=28a,28b,1b4 1b5=1b6",
  "1b7-1b8=292,1b9 1bc=1bd 1c4-1cd=64+17e,64+17e,64+17e,6c+6a,6c+6a,6c+6a,6e+6a,6e+6a,6e+6a,1ce",
  "1cf=1d0 1d1=1d2 1d3=1d4 1d5=1d6 1d7=1d8 1d9=1da 1db=1dc 1de=1df 1e0=1e1 1e2=1e3 1e4=1e5",
  "1e6=1e7 1e8=1e9 1ea=1eb 1ec=1ed 1ee=1ef 1f1-1f4=64+7a,64+7a,64+7a,1f5 1f6-1f8=195,1bf,1f9",
  "1fa=1fb 1fc=1fd 1fe=1ff 200=201 202=203 204=205 206=207 208=209 20a=20b 20c=20d 20e=20f",
  "210=211 212=213 214=215 216=217 218=219 21a=21b 21c=21d 21e=21f 220=19e 222=223 224=225",
  "226=227 228=229 22a=22b 22c=22d 22e=22f 230=231 232=233 23a-23b=2c65,23c 23d-23e=19a,2c66",
  "241=242 243-246=180,289,28c,247 248=249 24a=24b 24c=24d 24e=24f",
  "2b0-2b8=68,266,6a,72,279,27b,281,77,79 2d8-2dd=20+306,20+307,20+30a,20+328,20+303,20+30b",
  "2e0-2e4=263,6c,73,78,295 340-341=300,301 343-345=313,308+301,3b9 34f= 370=371 372=373 374=2b9",
  "376=377 37a=20+3b9 37e-37f=3b,3f3 384-38a=20+301,20+308+301,3ac,b7,3ad,3ae,3af 38c=3cc",
  "38e-38f=3cd,3ce 391-3a1=3b1,3b2,3b3,3b4,3b5,3b6,3b7,3b8,3b9,3ba,3bb,3bc,3bd,3be,3bf,3c0,3c1",
  "3a3-3ab=3c3,3c4,3c5,3c6,3c7,3c8,3c9,3ca,3cb 3cf-3d6=3d7,3b2,3b8,3c5,3cd,3cb,3c6,3c0 3d8=3d9",
  "3da=3db 3dc=3dd 3de=3df 3e0=3e1 3e2=3e3 3e4=3e5 3e6=3e7 3e8=3e9 3ea=3eb 3ec=3ed 3ee=3ef",
  "3f0-3f2=3ba,3c1,3c3 3f4-3f5=3b8,3b5 3f7=3f8 3f9-3fa=3c3,3fb",
  "3fd-411=37b,37c,37d,450,451,452,453,454,455,456,457,458,459,45a,45b,45c,45d,45e,45f,430,431",
  "412-426=432,433,434,435,436,437,438,439,43a,43b,43c,43d,43e,43f,440,441,442,443,444,445,446",
  "427-42f=447,448,449,44a,44b,44c,44d,44e,44f 460=461 462=463 464=465 466=467 468=469 46a=46b",
  "46c=46d 46e=46f 470=471 472=473 474=475 476=477 478=479 47a=47b 47c=47d 47e=47f 480=481",
  "48a=48b 48c=48d 48e=48f 490=491 492=493 494=495 496=497 498=499 49a=49b 49c=49d 49e=49f",
  "4a0=4a1 4a2=4a3 4a4=4a5 4a6=4a7 4a8=4a9 4aa=4ab 4ac=4ad 4ae=4af 4b0=4b1 4b2=4b3 4b4=4b5",
  "4b6=4b7 4b8=4b9 4ba=4bb 4bc=4bd 4be=4bf 4c0-4c1=4cf,4c2 4c3=4c4 4c5=4c6 4c7=4c8 4c9=4ca",
  "4cb=4cc 4cd=4ce 4d0=4d1 4d2=4d3 4d4=4d5 4d6=4d7 4d8=4d9 4da=4db 4dc=4dd 4de=4df 4e0=4e1",
  "4e2=4e3 4e4=4e5 4e6=4e7 4e8=4e9 4ea=4eb 4ec=4ed 4ee=4ef 4f0=4f1 4f2=4f3 4f4=4f5 4f6=4f7",
  "4f8=4f9 4fa=4fb 4fc=4fd 4fe=4ff 500=501 502=503 504=505 506=507 508=509 50a=50b 50c=50d",
  "50e=50f 510=511 512=513 514=515 516=517 518=519 51a=51b 51c=51d 51e=51f 520=521 522=523",
  "524=525 526=527 528=529 52a=52b 52c=52d 52e=52f",
  "531-545=561,562,563,564,565,566,567,568,569,56a,56b,56c,56d,56e,56f,570,571,572,573,574,575",
  "546-556=576,577,578,579,57a,57b,57c,57d,57e,57f,580,581,582,583,584,585,586 587=565+582",
  "675-678=627+674,648+674,6c7+674,64a+674",
  "958-95f=915+93c,916+93c,917+93c,91c+93c,921+93c,922+93c,92b+93c,92f+93c",
  "9dc-9dd=9a1+9bc,9a2+9bc 9df=9af+9bc a33=a32+a3c a36=a38+a3c a59-a5b=a16+a3c,a17+a3c,a1c+a3c",
  "a5e=a2b+a3c b5c-b5d=b21+b3c,b22+b3c e33=e4d+e32 eb3=ecd+eb2 edc-edd=eab+e99,eab+ea1 f0c=f0b",
  "f43=f42+fb7 f4d=f4c+fb7 f52=f51+fb7 f57=f56+fb7 f5c=f5b+fb7 f69=f40+fb5 f73=f71+f72",
  "f75-f79=f71+f74,fb2+f80,fb2+f71+f80,fb3+f80,fb3+f71+f80 f81=f71+f80 f93=f92+fb7 f9d=f9c+fb7",
  "fa2=fa1+fb7 fa7=fa6+fb7 fac=fab+fb7 fb9=f90+fb5",
  "10a0-10b0=2d00,2d01,2d02,2d03,2d04,2d05,2d06,2d07,2d08,2d09,2d0a,2d0b,2d0c,2d0d,2d0e,2d0f,2d10",
  "10b1-10c1=2d11,2d12,2d13,2d14,2d15,2d16,2d17,2d18,2d19,2d1a,2d1b,2d1c,2d1d,2d1e,2d1f,2d20,2d21",
  "10c2-10c5=2d22,2d23,2d24,2d25 10c7=2d27 10cd=2d2d 10fc=10dc 115f-1160=,",
  "13f8-13fd=13f0,13f1,13f2,13f3,13f4,13f5 17b4-17b5=, 180b-180f=",
  "1c80-1c89=432,434,43e,441,442,442,44a,463,a64b,1c8a",
  "1c90-1ca0=10d0,10d1,10d2,10d3,10d4,10d5,10d6,10d7,10d8,10d9,10da,10db,10dc,10dd,10de,10df,10e0",
  "1ca1-1cb1=10e1,10e2,10e3,10e4,10e5,10e6,10e7,10e8,10e9,10ea,10eb,10ec,10ed,10ee,10ef,10f0,10f1",
  "1cb2-1cba=10f2,10f3,10f4,10f5,10f6,10f7,10f8,10f9,10fa 1cbd-1cbf=10fd,10fe,10ff",
  "1d2c-1d2e=61,e6,62 1d30-1d3a=64,65,1dd,67,68,69,6a,6b,6c,6d,6e",
  "1d3c-1d4d=6f,223,70,72,74,75,77,61,250,251,1d02,62,64,65,259,25b,25c,67",
  "1d4f-1d65=6b,6d,14b,6f,254,1d16,1d17,70,74,75,1d1d,26f,76,1d25,3b2,3b3,3b4,3c6,3c7,69,72,75,76",
  "1d66-1d6a=3b2,3b3,3c1,3c6,3c7 1d78=43d",
  "1d9b-1daf=252,63,255,f0,25c,66,25f,261,265,268,269,26a,1d7b,29d,26d,1d85,29f,271,270,272,273",
  "1db0-1dbf=274,275,278,282,283,1ab,289,28a,1d1c,28b,28c,7a,290,291,292,3b8 1e00=1e01 1e02=1e03",
  "1e04=1e05 1e06=1e07 1e08=1e09 1e0a=1e0b 1e0c=1e0d 1e0e=1e0f 1e10=1e11 1e12=1e13 1e14=1e15",
  "1e16=1e17 1e18=1e19 1e1a=1e1b 1e1c=1e1d 1e1e=1e1f 1e20=1e21 1e22=1e23 1e24=1e25 1e26=1e27",
  "1e28=1e29 1e2a=1e2b 1e2c=1e2d 1e2e=1e2f 1e30=1e31 1e32=1e33 1e34=1e35 1e36=1e37 1e38=1e39",
  "1e3a=1e3b 1e3c=1e3d 1e3e=1e3f 1e40=1e41 1e42=1e43 1e44=1e45 1e46=1e47 1e48=1e49 1e4a=1e4b",
  "1e4c=1e4d 1e4e=1e4f 1e50=1e51 1e52=1e53 1e54=1e55 1e56=1e57 1e58=1e59 1e5a=1e5b 1e5c=1e5d",
  "1e5e=1e5f 1e60=1e61 1e62=1e63 1e64=1e65 1e66=1e67 1e68=1e69 1e6a=1e6b 1e6c=1e6d 1e6e=1e6f",
  "1e70=1e71 1e72=1e73 1e74=1e75 1e76=1e77 1e78=1e79 1e7a=1e7b 1e7c=1e7d 1e7e=1e7f 1e80=1e81",
  "1e82=1e83 1e84=1e85 1e86=1e87 1e88=1e89 1e8a=1e8b 1e8c=1e8d 1e8e=1e8f 1e90=1e91 1e92=1e93",
  "1e94=1e95 1e9a-1e9b=61+2be,1e61 1e9e=df 1ea0=1ea1 1ea2=1ea3 1ea4=1ea5 1ea6=1ea7 1ea8=1ea9",
  "1eaa=1eab 1eac=1ead 1eae=1eaf 1eb0=1eb1 1eb2=1eb3 1eb4=1eb5 1eb6=1eb7 1eb8=1eb9 1eba=1ebb",
  "1ebc=1ebd 1ebe=1ebf 1ec0=1ec1 1ec2=1ec3 1ec4=1ec5 1ec6=1ec7 1ec8=1ec9 1eca=1ecb 1ecc=1ecd",
  "1ece=1ecf 1ed0=1ed1 1ed2=1ed3 1ed4=1ed5 1ed6=1ed7 1ed8=1ed9 1eda=1edb 1edc=1edd 1ede=1edf",
  "1ee0=1ee1 1ee2=1ee3 1ee4=1ee5 1ee6=1ee7 1ee8=1ee9 1eea=1eeb 1eec=1eed 1eee=1eef 1ef0=1ef1",
  "1ef2=1ef3 1ef4=1ef5 1ef6=1ef7 1ef8=1ef9 1efa=1efb 1efc=1efd 1efe=1eff",
  "1f08-1f0f=1f00,1f01,1f02,1f03,1f04,1f05,1f06,1f07 1f18-1f1d=1f10,1f11,1f12,1f13,1f14,1f15",
  "1f28-1f2f=1f20,1f21,1f22,1f23,1f24,1f25,1f26,1f27",
  "1f38-1f3f=1f30,1f31,1f32,1f33,1f34,1f35,1f36,1f37 1f48-1f4d=1f40,1f41,1f42,1f43,1f44,1f45",
  "1f59=1f51 1f5b=1f53 1f5d=1f55 1f5f=1f57 1f68-1f6f=1f60,1f61,1f62,1f63,1f64,1f65,1f66,1f67",
  "1f71=3ac 1f73=3ad 1f75=3ae 1f77=3af 1f79=3cc 1f7b=3cd 1f7d=3ce",
  "1f80-1f88=1f00+3b9,1f01+3b9,1f02+3b9,1f03+3b9,1f04+3b9,1f05+3b9,1f06+3b9,1f07+3b9,1f00+3b9",
  "1f89-1f91=1f01+3b9,1f02+3b9,1f03+3b9,1f04+3b9,1f05+3b9,1f06+3b9,1f07+3b9,1f20+3b9,1f21+3b9",
  "1f92-1f9a=1f22+3b9,1f23+3b9,1f24+3b9,1f25+3b9,1f26+3b9,1f27+3b9,1f20+3b9,1f21+3b9,1f22+3b9",
  "1f9b-1fa3=1f23+3b9,1f24+3b9,1f25+3b9,1f26+3b9,1f27+3b9,1f60+3b9,1f61+3b9,1f62+3b9,1f63+3b9",
  "1fa4-1fac=1f64+3b9,1f65+3b9,1f66+3b9,1f67+3b9,1f60+3b9,1f61+3b9,1f62+3b9,1f63+3b9,1f64+3b9",
  "1fad-1faf=1f65+3b9,1f66+3b9,1f67+3b9 1fb2-1fb4=1f70+3b9,3b1+3b9,3ac+3b9",
  "1fb7-1fc2=1fb6+3b9,1fb0,1fb1,1f70,3ac,3b1+3b9,20+313,3b9,20+313,20+342,20+308+342,1f74+3b9",
  "1fc3-1fc4=3b7+3b9,3ae+3b9",
  "1fc7-1fcf=1fc6+3b9,1f72,3ad,1f74,3ae,3b7+3b9,20+313+300,20+313+301,20+313+342 1fd3=390",
  "1fd8-1fdb=1fd0,1fd1,1f76,3af 1fdd-1fdf=20+314+300,20+314+301,20+314+342 1fe3=3b0",
  "1fe8-1fef=1fe0,1fe1,1f7a,3cd,1fe5,20+308+300,20+308+301,60 1ff2-1ff4=1f7c+3b9,3c9+3b9,3ce+3b9",
  "1ff7-1ffe=1ff6+3b9,1f78,3cc,1f7c,3ce,3c9+3b9,20+301,20+314 2000-200a=20 200b= 2011=2010",
  "2017=20+333 202f=20 2033-2034=2032+2032,2032+2032+2032 2036-2037=2035+2035,2035+2035+2035",
  "203c=21+21 203e=20+305 2047-2049=3f+3f,3f+21,21+3f 2057=2032+2032+2032+2032 205f=20 2060-2064=",
  "206a-206f= 2070-2071=30,69",
  "2074-208e=34,35,36,37,38,39,2b,2212,3d,28,29,6e,30,31,32,33,34,35,36,37,38,39,2b,2212,3d,28,29",
  "2090-209c=61,65,6f,78,259,68,6b,6c,6d,6e,70,73,74 20a8=72+73",
  "2100-2103=61+2f+63,61+2f+73,63,b0+63 2105-2107=63+2f+6f,63+2f+75,25b 2109-210a=b0+66,67",
  "210b-210e=68 210f-2113=127,69,69,6c,6c 2115-2116=6e,6e+6f 2119-211d=70,71,72,72,72",
  "2120-2122=73+6d,74+65+6c,74+6d 2124=7a 2126=3c9 2128=7a 212a-212d=6b,e5,62,63",
  "212f-2139=65,65,66,214e,6d,6f,5d0,5d1,5d2,5d3,69 213b-2140=66+61+78,3c0,3b3,3b3,3c0,2211",
  "2145-2149=64,64,65,69,6a",
  "2150-2156=31+2044+37,31+2044+39,31+2044+31+30,31+2044+33,32+2044+33,31+2044+35,32+2044+35",
  "2157-215d=33+2044+35,34+2044+35,31+2044+36,35+2044+36,31+2044+38,33+2044+38,35+2044+38",
  "215e-2169=37+2044+38,31+2044,69,69+69,69+69+69,69+76,76,76+69,76+69+69,76+69+69+69,69+78,78",
  "216a-2177=78+69,78+69+69,6c,63,64,6d,69,69+69,69+69+69,69+76,76,76+69,76+69+69,76+69+69+69",
  "2178-217f=69+78,78,78+69,78+69+69,6c,63,64,6d 2183=2184 2189=30+2044+33",
  "222c-222d=222b+222b,222b+222b+222b 222f-2230=222e+222e,222e+222e+222e 2329-232a=3008,3009",
  "2460-2471=31,32,33,34,35,36,37,38,39,31+30,31+31,31+32,31+33,31+34,31+35,31+36,31+37,31+38",
  "2472-247b=31+39,32+30,28+31+29,28+32+29,28+33+29,28+34+29,28+35+29,28+36+29,28+37+29,28+38+29",
  "247c-2482=28+39+29,28+31+30+29,28+31+31+29,28+31+32+29,28+31+33+29,28+31+34+29,28+31+35+29",
  "2483-2487=28+31+36+29,28+31+37+29,28+31+38+29,28+31+39+29,28+32+30+29",
  "249c-24a4=28+61+29,28+62+29,28+63+29,28+64+29,28+65+29,28+66+29,28+67+29,28+68+29,28+69+29",
  "24a5-24ad=28+6a+29,28+6b+29,28+6c+29,28+6d+29,28+6e+29,28+6f+29,28+70+29,28+71+29,28+72+29",
  "24ae-24b9=28+73+29,28+74+29,28+75+29,28+76+29,28+77+29,28+78+29,28+79+29,28+7a+29,61,62,63,64",
  "24ba-24d5=65,66,67,68,69,6a,6b,6c,6d,6e,6f,70,71,72,73,74,75,76,77,78,79,7a,61,62,63,64,65,66",
  "24d6-24ea=67,68,69,6a,6b,6c,6d,6e,6f,70,71,72,73,74,75,76,77,78,79,7a,30",
  "2a0c=222b+222b+222b+222b 2a74-2a76=3a+3a+3d,3d+3d,3d+3d+3d 2adc=2add+338",
  "2c00-2c10=2c30,2c31,2c32,2c33,2c34,2c35,2c36,2c37,2c38,2c39,2c3a,2c3b,2c3c,2c3d,2c3e,2c3f,2c40",
  "2c11-2c21=2c41,2c42,2c43,2c44,2c45,2c46,2c47,2c48,2c49,2c4a,2c4b,2c4c,2c4d,2c4e,2c4f,2c50,2c51",
  "2c22-2c2f=2c52,2c53,2c54,2c55,2c56,2c57,2c58,2c59,2c5a,2c5b,2c5c,2c5d,2c5e,2c5f 2c60=2c61",
  "2c62-2c64=26b,1d7d,27d 2c67=2c68 2c69=2c6a 2c6b=2c6c 2c6d-2c70=251,271,250,252 2c72=2c73",
  "2c75=2c76 2c7c-2c80=6a,76,23f,240,2c81 2c82=2c83 2c84=2c85 2c86=2c87 2c88=2c89 2c8a=2c8b",
  "2c8c=2c8d 2c8e=2c8f 2c90=2c91 2c92=2c93 2c94=2c95 2c96=2c97 2c98=2c99 2c9a=2c9b 2c9c=2c9d",
  "2c9e=2c9f 2ca0=2ca1 2ca2=2ca3 2ca4=2ca5 2ca6=2ca7 2ca8=2ca9 2caa=2cab 2cac=2cad 2cae=2caf",
  "2cb0=2cb1 2cb2=2cb3 2cb4=2cb5 2cb6=2cb7 2cb8=2cb9 2cba=2cbb 2cbc=2cbd 2cbe=2cbf 2cc0=2cc1",
  "2cc2=2cc3 2cc4=2cc5 2cc6=2cc7 2cc8=2cc9 2cca=2ccb 2ccc=2ccd 2cce=2ccf 2cd0=2cd1 2cd2=2cd3",
  "2cd4=2cd5 2cd6=2cd7 2cd8=2cd9 2cda=2cdb 2cdc=2cdd 2cde=2cdf 2ce0=2ce1 2ce2=2ce3 2ceb=2cec",
  "2ced=2cee 2cf2=2cf3 2d6f=2d61 2e9f=6bcd 2ef3=9f9f",
  "2f00-2f10=4e00,4e28,4e36,4e3f,4e59,4e85,4e8c,4ea0,4eba,513f,5165,516b,5182,5196,51ab,51e0,51f5",
  "2f11-2f21=5200,529b,52f9,5315,531a,5338,5341,535c,5369,5382,53b6,53c8,53e3,56d7,571f,58eb,5902",
  "2f22-2f32=590a,5915,5927,5973,5b50,5b80,5bf8,5c0f,5c22,5c38,5c6e,5c71,5ddb,5de5,5df1,5dfe,5e72",
  "2f33-2f43=5e7a,5e7f,5ef4,5efe,5f0b,5f13,5f50,5f61,5f73,5fc3,6208,6236,624b,652f,6534,6587,6597",
  "2f44-2f54=65a4,65b9,65e0,65e5,66f0,6708,6728,6b20,6b62,6b79,6bb3,6bcb,6bd4,6bdb,6c0f,6c14,6c34",
  "2f55-2f65=706b,722a,7236,723b,723f,7247,7259,725b,72ac,7384,7389,74dc,74e6,7518,751f,7528,7530",
  "2f66-2f76=758b,7592,7676,767d,76ae,76bf,76ee,77db,77e2,77f3,793a,79b8,79be,7a74,7acb,7af9,7c73",
  "2f77-2f87=7cf8,7f36,7f51,7f8a,7fbd,8001,800c,8012,8033,807f,8089,81e3,81ea,81f3,81fc,820c,821b",
  "2f88-2f98=821f,826e,8272,8278,864d,866b,8840,884c,8863,897e,898b,89d2,8a00,8c37,8c46,8c55,8c78",
  "2f99-2fa9=8c9d,8d64,8d70,8db3,8eab,8eca,8f9b,8fb0,8fb5,9091,9149,91c6,91cc,91d1,9577,9580,961c",
  "2faa-2fba=96b6,96b9,96e8,9751,975e,9762,9769,97cb,97ed,97f3,9801,98a8,98db,98df,9996,9999,99ac",
  "2fbb-2fcb=9aa8,9ad8,9adf,9b25,9b2f,9b32,9b3c,9b5a,9ce5,9e75,9e7f,9ea5,9ebb,9ec3,9ecd,9ed1,9ef9",
  "2fcc-2fd5=9efd,9f0e,9f13,9f20,9f3b,9f4a,9f52,9f8d,9f9c,9fa0 3000=20 3002=2e 3036=3012",
  "3038-303a=5341,5344,5345 309b-309c=20+3099,20+309a 309f=3088+308a 30ff=30b3+30c8",
  "3131-3141=1100,1101,11aa,1102,11ac,11ad,1103,1104,1105,11b0,11b1,11b2,11b3,11b4,11b5,111a,1106",
  "3142-3152=1107,1108,1121,1109,110a,110b,110c,110d,110e,110f,1110,1111,1112,1161,1162,1163,1164",
  "3153-3163=1165,1166,1167,1168,1169,116a,116b,116c,116d,116e,116f,1170,1171,1172,1173,1174,1175",
  "3164-3174=,1114,1115,11c7,11c8,11cc,11ce,11d3,11d7,11d9,111c,11dd,11df,111d,111e,1120,1122",
  "3175-3185=1123,1127,1129,112b,112c,112d,112e,112f,1132,1136,1140,1147,114c,11f1,11f2,1157,1158",
  "3186-318e=1159,1184,1185,1188,1191,1192,1194,119e,11a1",
  "3192-319f=4e00,4e8c,4e09,56db,4e0a,4e2d,4e0b,7532,4e59,4e19,4e01,5929,5730,4eba",
  "3200-3206=28+1100+29,28+1102+29,28+1103+29,28+1105+29,28+1106+29,28+1107+29,28+1109+29",
  "3207-320d=28+110b+29,28+110c+29,28+110e+29,28+110f+29,28+1110+29,28+1111+29,28+1112+29",
  "320e-3214=28+ac00+29,28+b098+29,28+b2e4+29,28+b77c+29,28+b9c8+29,28+bc14+29,28+c0ac+29",
  "3215-321b=28+c544+29,28+c790+29,28+cc28+29,28+ce74+29,28+d0c0+29,28+d30c+29,28+d558+29",
  "321c-321e=28+c8fc+29,28+c624+c804+29,28+c624+d6c4+29",
  "3220-3226=28+4e00+29,28+4e8c+29,28+4e09+29,28+56db+29,28+4e94+29,28+516d+29,28+4e03+29",
  "3227-322d=28+516b+29,28+4e5d+29,28+5341+29,28+6708+29,28+706b+29,28+6c34+29,28+6728+29",
  "322e-3234=28+91d1+29,28+571f+29,28+65e5+29,28+682a+29,28+6709+29,28+793e+29,28+540d+29",
  "3235-323b=28+7279+29,28+8ca1+29,28+795d+29,28+52b4+29,28+4ee3+29,28+547c+29,28+5b66+29",
  "323c-3242=28+76e3+29,28+4f01+29,28+8cc7+29,28+5354+29,28+796d+29,28+4f11+29,28+81ea+29",
  "3243-3247=28+81f3+29,554f,5e7c,6587,7b8f",
  "3250-325c=70+74+65,32+31,32+32,32+33,32+34,32+35,32+36,32+37,32+38,32+39,33+30,33+31,33+32",
  "325d-326c=33+33,33+34,33+35,1100,1102,1103,1105,1106,1107,1109,110b,110c,110e,110f,1110,1111",
  "326d-327c=1112,ac00,b098,b2e4,b77c,b9c8,bc14,c0ac,c544,c790,cc28,ce74,d0c0,d30c,d558,cc38+ace0",
  "327d-327e=c8fc+c758,c6b0",
  "3280-3290=4e00,4e8c,4e09,56db,4e94,516d,4e03,516b,4e5d,5341,6708,706b,6c34,6728,91d1,571f,65e5",
  "3291-32a1=682a,6709,793e,540d,7279,8ca1,795d,52b4,79d8,7537,5973,9069,512a,5370,6ce8,9805,4f11",
  "32a2-32b1=5199,6b63,4e0a,4e2d,4e0b,5de6,53f3,533b,5b97,5b66,76e3,4f01,8cc7,5354,591c,33+36",
  "32b2-32bf=33+37,33+38,33+39,34+30,34+31,34+32,34+33,34+34,34+35,34+36,34+37,34+38,34+39,35+30",
  "32c0-32c9=31+6708,32+6708,33+6708,34+6708,35+6708,36+6708,37+6708,38+6708,39+6708,31+30+6708",
  "32ca-32d5=31+31+6708,31+32+6708,68+67,65+72+67,65+76,6c+74+64,30a2,30a4,30a6,30a8,30aa,30ab",
  "32d6-32e6=30ad,30af,30b1,30b3,30b5,30b7,30b9,30bb,30bd,30bf,30c1,30c4,30c6,30c8,30ca,30cb,30cc",
  "32e7-32f7=30cd,30ce,30cf,30d2,30d5,30d8,30db,30de,30df,30e0,30e1,30e2,30e4,30e6,30e8,30e9,30ea",
  "32f8-3301=30eb,30ec,30ed,30ef,30f0,30f1,30f2,4ee4+548c,30a2+30d1+30fc+30c8,30a2+30eb+30d5+30a1",
  "3302-3306=30a2+30f3+30da+30a2,30a2+30fc+30eb,30a4+30cb+30f3+30b0,30a4+30f3+30c1,30a6+30a9+30f3",
  "3307-330a=30a8+30b9+30af+30fc+30c9,30a8+30fc+30ab+30fc,30aa+30f3+30b9,30aa+30fc+30e0",
  "330b-330f=30ab+30a4+30ea,30ab+30e9+30c3+30c8,30ab+30ed+30ea+30fc,30ac+30ed+30f3,30ac+30f3+30de",
  "3310-3314=30ae+30ac,30ae+30cb+30fc,30ad+30e5+30ea+30fc,30ae+30eb+30c0+30fc,30ad+30ed",
  "3315-3317=30ad+30ed+30b0+30e9+30e0,30ad+30ed+30e1+30fc+30c8+30eb,30ad+30ed+30ef+30c3+30c8",
  "3318-331b=30b0+30e9+30e0,30b0+30e9+30e0+30c8+30f3,30af+30eb+30bc+30a4+30ed,30af+30ed+30fc+30cd",
  "331c-331f=30b1+30fc+30b9,30b3+30eb+30ca,30b3+30fc+30dd,30b5+30a4+30af+30eb",
  "3320-3323=30b5+30f3+30c1+30fc+30e0,30b7+30ea+30f3+30b0,30bb+30f3+30c1,30bb+30f3+30c8",
  "3324-332a=30c0+30fc+30b9,30c7+30b7,30c9+30eb,30c8+30f3,30ca+30ce,30ce+30c3+30c8,30cf+30a4+30c4",
  "332b-332e=30d1+30fc+30bb+30f3+30c8,30d1+30fc+30c4,30d0+30fc+30ec+30eb,30d4+30a2+30b9+30c8+30eb",
  "332f-3333=30d4+30af+30eb,30d4+30b3,30d3+30eb,30d5+30a1+30e9+30c3+30c9,30d5+30a3+30fc+30c8",
  "3334-3337=30d6+30c3+30b7+30a7+30eb,30d5+30e9+30f3,30d8+30af+30bf+30fc+30eb,30da+30bd",
  "3338-333c=30da+30cb+30d2,30d8+30eb+30c4,30da+30f3+30b9,30da+30fc+30b8,30d9+30fc+30bf",
  "333d-3341=30dd+30a4+30f3+30c8,30dc+30eb+30c8,30db+30f3,30dd+30f3+30c9,30db+30fc+30eb",
  "3342-3346=30db+30fc+30f3,30de+30a4+30af+30ed,30de+30a4+30eb,30de+30c3+30cf,30de+30eb+30af",
  "3347-334a=30de+30f3+30b7+30e7+30f3,30df+30af+30ed+30f3,30df+30ea,30df+30ea+30d0+30fc+30eb",
  "334b-334f=30e1+30ac,30e1+30ac+30c8+30f3,30e1+30fc+30c8+30eb,30e4+30fc+30c9,30e4+30fc+30eb",
  "3350-3354=30e6+30a2+30f3,30ea+30c3+30c8+30eb,30ea+30e9,30eb+30d4+30fc,30eb+30fc+30d6+30eb",
  "3355-335b=30ec+30e0,30ec+30f3+30c8+30b2+30f3,30ef+30c3+30c8,30+70b9,31+70b9,32+70b9,33+70b9",
  "335c-3364=34+70b9,35+70b9,36+70b9,37+70b9,38+70b9,39+70b9,31+30+70b9,31+31+70b9,31+32+70b9",
  "3365-336b=31+33+70b9,31+34+70b9,31+35+70b9,31+36+70b9,31+37+70b9,31+38+70b9,31+39+70b9",
  "336c-3374=32+30+70b9,32+31+70b9,32+32+70b9,32+33+70b9,32+34+70b9,68+70+61,64+61,61+75,62+61+72",
  "3375-337e=6f+76,70+63,64+6d,64+6d+32,64+6d+33,69+75,5e73+6210,662d+548c,5927+6b63,660e+6cbb",
  "337f-3388=682a+5f0f+4f1a+793e,70+61,6e+61,3bc+61,6d+61,6b+61,6b+62,6d+62,67+62,63+61+6c",
  "3389-3393=6b+63+61+6c,70+66,6e+66,3bc+66,3bc+67,6d+67,6b+67,68+7a,6b+68+7a,6d+68+7a,67+68+7a",
  "3394-339f=74+68+7a,3bc+6c,6d+6c,64+6c,6b+6c,66+6d,6e+6d,3bc+6d,6d+6d,63+6d,6b+6d,6d+6d+32",
  "33a0-33a8=63+6d+32,6d+32,6b+6d+32,6d+6d+33,63+6d+33,6d+33,6b+6d+33,6d+2215+73,6d+2215+73+32",
  "33a9-33b0=70+61,6b+70+61,6d+70+61,67+70+61,72+61+64,72+61+64+2215+73,72+61+64+2215+73+32,70+73",
  "33b1-33bd=6e+73,3bc+73,6d+73,70+76,6e+76,3bc+76,6d+76,6b+76,6d+76,70+77,6e+77,3bc+77,6d+77",
  "33be-33c1=6b+77,6d+77,6b+3c9,6d+3c9 33c3-33c6=62+71,63+63,63+64,63+2215+6b+67",
  "33c8-33d4=64+62,67+79,68+61,68+70,69+6e,6b+6b,6b+6d,6b+74,6c+6d,6c+6e,6c+6f+67,6c+78,6d+62",
  "33d5-33d7=6d+69+6c,6d+6f+6c,70+68",
  "33d9-33e2=70+70+6d,70+72,73+72,73+76,77+62,76+2215+6d,61+2215+6d,31+65e5,32+65e5,33+65e5",
  "33e3-33eb=34+65e5,35+65e5,36+65e5,37+65e5,38+65e5,39+65e5,31+30+65e5,31+31+65e5,31+32+65e5",
  "33ec-33f2=31+33+65e5,31+34+65e5,31+35+65e5,31+36+65e5,31+37+65e5,31+38+65e5,31+39+65e5",
  "33f3-33f9=32+30+65e5,32+31+65e5,32+32+65e5,32+33+65e5,32+34+65e5,32+35+65e5,32+36+65e5",
  "33fa-33ff=32+37+65e5,32+38+65e5,32+39+65e5,33+30+65e5,33+31+65e5,67+61+6c a640=a641 a642=a643",
  "a644=a645 a646=a647 a648=a649 a64a=a64b a64c=a64d a64e=a64f a650=a651 a652=a653 a654=a655",
  "a656=a657 a658=a659 a65a=a65b a65c=a65d a65e=a65f a660=a661 a662=a663 a664=a665 a666=a667",
  "a668=a669 a66a=a66b a66c=a66d a680=a681 a682=a683 a684=a685 a686=a687 a688=a689 a68a=a68b",
  "a68c=a68d a68e=a68f a690=a691 a692=a693 a694=a695 a696=a697 a698=a699 a69a=a69b",
  "a69c-a69d=44a,44c a722=a723 a724=a725 a726=a727 a728=a729 a72a=a72b a72c=a72d a72e=a72f",
  "a732=a733 a734=a735 a736=a737 a738=a739 a73a=a73b a73c=a73d a73e=a73f a740=a741 a742=a743",
  "a744=a745 a746=a747 a748=a749 a74a=a74b a74c=a74d a74e=a74f a750=a751 a752=a753 a754=a755",
  "a756=a757 a758=a759 a75a=a75b a75c=a75d a75e=a75f a760=a761 a762=a763 a764=a765 a766=a767",
  "a768=a769 a76a=a76b a76c=a76d a76e=a76f a770=a76f a779=a77a a77b=a77c a77d-a77e=1d79,a77f",
  "a780=a781 a782=a783 a784=a785 a786=a787 a78b=a78c a78d=265 a790=a791 a792=a793 a796=a797",
  "a798=a799 a79a=a79b a79c=a79d a79e=a79f a7a0=a7a1 a7a2=a7a3 a7a4=a7a5 a7a6=a7a7 a7a8=a7a9",
  "a7aa-a7ae=266,25c,261,26c,26a a7b0-a7b4=29e,287,29d,ab53,a7b5 a7b6=a7b7 a7b8=a7b9 a7ba=a7bb",
  "a7bc=a7bd a7be=a7bf a7c0=a7c1 a7c2=a7c3 a7c4-a7c7=a794,282,1d8e,a7c8 a7c9=a7ca",
  "a7cb-a7cc=264,a7cd a7ce=a7cf a7d0=a7d1 a7d2=a7d3 a7d4=a7d5 a7d6=a7d7 a7d8=a7d9 a7da=a7db",
  "a7dc=19b a7f1-a7f5=73,63,66,71,a7f6 a7f8-a7f9=127,153 ab5c-ab5f=a727,ab37,26b,ab52 ab69=28d",
  "ab70-ab80=13a0,13a1,13a2,13a3,13a4,13a5,13a6,13a7,13a8,13a9,13aa,13ab,13ac,13ad,13ae,13af,13b0",
  "ab81-ab91=13b1,13b2,13b3,13b4,13b5,13b6,13b7,13b8,13b9,13ba,13bb,13bc,13bd,13be,13bf,13c0,13c1",
  "ab92-aba2=13c2,13c3,13c4,13c5,13c6,13c7,13c8,13c9,13ca,13cb,13cc,13cd,13ce,13cf,13d0,13d1,13d2",
  "aba3-abb3=13d3,13d4,13d5,13d6,13d7,13d8,13d9,13da,13db,13dc,13dd,13de,13df,13e0,13e1,13e2,13e3",
  "abb4-abbf=13e4,13e5,13e6,13e7,13e8,13e9,13ea,13eb,13ec,13ed,13ee,13ef",
  "f900-f910=8c48,66f4,8eca,8cc8,6ed1,4e32,53e5,9f9c,9f9c,5951,91d1,5587,5948,61f6,7669,7f85,863f",
  "f911-f921=87ba,88f8,908f,6a02,6d1b,70d9,73de,843d,916a,99f1,4e82,5375,6b04,721b,862d,9e1e,5d50",
  "f922-f932=6feb,85cd,8964,62c9,81d8,881f,5eca,6717,6d6a,72fc,90ce,4f86,51b7,52de,64c4,6ad3,7210",
  "f933-f943=76e7,8001,8606,865c,8def,9732,9b6f,9dfa,788c,797f,7da0,83c9,9304,9e7f,8ad6,58df,5f04",
  "f944-f954=7c60,807e,7262,78ca,8cc2,96f7,58d8,5c62,6a13,6dda,6f0f,7d2f,7e37,964b,52d2,808b,51dc",
  "f955-f965=51cc,7a1c,7dbe,83f1,9675,8b80,62cf,6a02,8afe,4e39,5be7,6012,7387,7570,5317,78fb,4fbf",
  "f966-f976=5fa9,4e0d,6ccc,6578,7d22,53c3,585e,7701,8449,8aaa,6bba,8fb0,6c88,62fe,82e5,63a0,7565",
  "f977-f987=4eae,5169,51c9,6881,7ce7,826f,8ad2,91cf,52f5,5442,5973,5eec,65c5,6ffe,792a,95ad,9a6a",
  "f988-f998=9e97,9ece,529b,66c6,6b77,8f62,5e74,6190,6200,649a,6f23,7149,7489,79ca,7df4,806f,8f26",
  "f999-f9a9=84ee,9023,934a,5217,52a3,54bd,70c8,88c2,8aaa,5ec9,5ff5,637b,6bae,7c3e,7375,4ee4,56f9",
  "f9aa-f9ba=5be7,5dba,601c,73b2,7469,7f9a,8046,9234,96f6,9748,9818,4f8b,79ae,91b4,96b8,60e1,4e86",
  "f9bb-f9cb=50da,5bee,5c3f,6599,6a02,71ce,7642,84fc,907c,9f8d,6688,962e,5289,677b,67f3,6d41,6e9c",
  "f9cc-f9dc=7409,7559,786b,7d10,985e,516d,622e,9678,502b,5d19,6dea,8f2a,5f8b,6144,6817,7387,9686",
  "f9dd-f9ed=5229,540f,5c65,6613,674e,68a8,6ce5,7406,75e2,7f79,88cf,88e1,91cc,96e2,533f,6eba,541d",
  "f9ee-f9fe=71d0,7498,85fa,96a3,9c57,9e9f,6797,6dcb,81e8,7acb,7b20,7c92,72c0,7099,8b58,4ec0,8336",
  "f9ff-fa0d=523a,5207,5ea6,62d3,7cd6,5b85,6d1e,66b4,8f3b,884c,964d,898b,5ed3,5140,55c0 fa10=585a",
  "fa12=6674 fa15-fa1e=51de,732a,76ca,793c,795e,7965,798f,9756,7cbe,7fbd fa20=8612 fa22=8af8",
  "fa25-fa26=9038,90fd",
  "fa2a-fa3a=98ef,98fc,9928,9db4,90de,96b7,4fae,50e7,514d,52c9,52e4,5351,559d,5606,5668,5840,58a8",
  "fa3b-fa4b=5c64,5c6e,6094,6168,618e,61f2,654f,65e2,6691,6885,6d77,6e1a,6f22,716e,722b,7422,7891",
  "fa4c-fa5c=793e,7949,7948,7950,7956,795d,798d,798e,7a40,7a81,7bc0,7df4,7e09,7e41,7f72,8005,81ed",
  "fa5d-fa6c=8279,8279,8457,8910,8996,8b01,8b39,8cd3,8d08,8fb6,9038,96e3,97ff,983b,6075,242ee",
  "fa6d=8218",
  "fa70-fa80=4e26,51b5,5168,4f80,5145,5180,52c7,52fa,559d,5555,5599,55e2,585a,58b3,5944,5954,5a62",
  "fa81-fa91=5b28,5ed2,5ed9,5f69,5fad,60d8,614e,6108,618e,6160,61f2,6234,63c4,641c,6452,6556,6674",
  "fa92-faa2=6717,671b,6756,6b79,6bba,6d41,6edb,6ecb,6f22,701e,716e,77a7,7235,72af,732a,7471,7506",
  "faa3-fab3=753b,761d,761f,76ca,76db,76f4,774a,7740,78cc,7ab1,7bc0,7c7b,7d5b,7df4,7f3e,8005,8352",
  "fab4-fac4=83ef,8779,8941,8986,8996,8abf,8af8,8acb,8b01,8afe,8aed,8b39,8b8a,8d08,8f38,9072,9199",
  "fac5-fad4=9276,967c,96e3,9756,97db,97ff,980b,983b,9b12,9f9c,2284a,22844,233d5,3b9d,4018,4039",
  "fad5-fad9=25249,25cd0,27ed3,9f43,9f8e",
  "fb00-fb06=66+66,66+69,66+6c,66+66+69,66+66+6c,73+74,73+74",
  "fb13-fb17=574+576,574+565,574+56b,57e+576,574+56d fb1d=5d9+5b4",
  "fb1f-fb2c=5f2+5b7,5e2,5d0,5d3,5d4,5db,5dc,5dd,5e8,5ea,2b,5e9+5c1,5e9+5c2,5e9+5bc+5c1",
  "fb2d-fb36=5e9+5bc+5c2,5d0+5b7,5d0+5b8,5d0+5bc,5d1+5bc,5d2+5bc,5d3+5bc,5d4+5bc,5d5+5bc,5d6+5bc",
  "fb38-fb3c=5d8+5bc,5d9+5bc,5da+5bc,5db+5bc,5dc+5bc fb3e=5de+5bc fb40-fb41=5e0+5bc,5e1+5bc",
  "fb43-fb44=5e3+5bc,5e4+5bc",
  "fb46-fb50=5e6+5bc,5e7+5bc,5e8+5bc,5e9+5bc,5ea+5bc,5d5+5b9,5d1+5bf,5db+5bf,5e4+5bf,5d0+5dc,671",
  "fb51=671 fb52-fb55=67b fb56-fb59=67e fb5a-fb5d=680 fb5e-fb61=67a fb62-fb65=67f fb66-fb69=679",
  "fb6a-fb6d=6a4 fb6e-fb71=6a6 fb72-fb75=684 fb76-fb79=683 fb7a-fb7d=686 fb7e-fb81=687",
  "fb82-fb8d=68d,68d,68c,68c,68e,68e,688,688,698,698,691,691 fb8e-fb91=6a9 fb92-fb95=6af",
  "fb96-fb99=6b3 fb9a-fb9d=6b1 fb9e-fb9f=6ba,6ba fba0-fba3=6bb fba4-fba5=6c0,6c0 fba6-fba9=6c1",
  "fbaa-fbad=6be fbae-fbb1=6d2,6d2,6d3,6d3 fbd3-fbd6=6ad",
  "fbd7-fbe3=6c7,6c7,6c6,6c6,6c8,6c8,6c7+674,6cb,6cb,6c5,6c5,6c9,6c9 fbe4-fbe7=6d0",
  "fbe8-fbf2=649,649,626+627,626+627,626+6d5,626+6d5,626+648,626+648,626+6c7,626+6c7,626+6c6",
  "fbf3-fbfb=626+6c6,626+6c8,626+6c8,626+6d0,626+6d0,626+6d0,626+649,626+649,626+649",
  "fbfc-fbff=6cc",
  "fc00-fc09=626+62c,626+62d,626+645,626+649,626+64a,628+62c,628+62d,628+62e,628+645,628+649",
  "fc0a-fc13=628+64a,62a+62c,62a+62d,62a+62e,62a+645,62a+649,62a+64a,62b+62c,62b+645,62b+649",
  "fc14-fc1d=62b+64a,62c+62d,62c+645,62d+62c,62d+645,62e+62c,62e+62d,62e+645,633+62c,633+62d",
  "fc1e-fc27=633+62e,633+645,635+62d,635+645,636+62c,636+62d,636+62e,636+645,637+62d,637+645",
  "fc28-fc31=638+645,639+62c,639+645,63a+62c,63a+645,641+62c,641+62d,641+62e,641+645,641+649",
  "fc32-fc3b=641+64a,642+62d,642+645,642+649,642+64a,643+627,643+62c,643+62d,643+62e,643+644",
  "fc3c-fc45=643+645,643+649,643+64a,644+62c,644+62d,644+62e,644+645,644+649,644+64a,645+62c",
  "fc46-fc4f=645+62d,645+62e,645+645,645+649,645+64a,646+62c,646+62d,646+62e,646+645,646+649",
  "fc50-fc59=646+64a,647+62c,647+645,647+649,647+64a,64a+62c,64a+62d,64a+62e,64a+645,64a+649",
  "fc5a-fc61=64a+64a,630+670,631+670,649+670,20+64c+651,20+64d+651,20+64e+651,20+64f+651",
  "fc62-fc6a=20+650+651,20+651+670,626+631,626+632,626+645,626+646,626+649,626+64a,628+631",
  "fc6b-fc74=628+632,628+645,628+646,628+649,628+64a,62a+631,62a+632,62a+645,62a+646,62a+649",
  "fc75-fc7e=62a+64a,62b+631,62b+632,62b+645,62b+646,62b+649,62b+64a,641+649,641+64a,642+649",
  "fc7f-fc88=642+64a,643+627,643+644,643+645,643+649,643+64a,644+645,644+649,644+64a,645+627",
  "fc89-fc92=645+645,646+631,646+632,646+645,646+646,646+649,646+64a,649+670,64a+631,64a+632",
  "fc93-fc9c=64a+645,64a+646,64a+649,64a+64a,626+62c,626+62d,626+62e,626+645,626+647,628+62c",
  "fc9d-fca6=628+62d,628+62e,628+645,628+647,62a+62c,62a+62d,62a+62e,62a+645,62a+647,62b+645",
  "fca7-fcb0=62c+62d,62c+645,62d+62c,62d+645,62e+62c,62e+645,633+62c,633+62d,633+62e,633+645",
  "fcb1-fcba=635+62d,635+62e,635+645,636+62c,636+62d,636+62e,636+645,637+62d,638+645,639+62c",
  "fcbb-fcc4=639+645,63a+62c,63a+645,641+62c,641+62d,641+62e,641+645,642+62d,642+645,643+62c",
  "fcc5-fcce=643+62d,643+62e,643+644,643+645,644+62c,644+62d,644+62e,644+645,644+647,645+62c",
  "fccf-fcd8=645+62d,645+62e,645+645,646+62c,646+62d,646+62e,646+645,646+647,647+62c,647+645",
  "fcd9-fce2=647+670,64a+62c,64a+62d,64a+62e,64a+645,64a+647,626+645,626+647,628+645,628+647",
  "fce3-fcec=62a+645,62a+647,62b+645,62b+647,633+645,633+647,634+645,634+647,643+644,643+645",
  "fced-fcf5=644+645,646+645,646+647,64a+645,64a+647,640+64e+651,640+64f+651,640+650+651,637+649",
  "fcf6-fcff=637+64a,639+649,639+64a,63a+649,63a+64a,633+649,633+64a,634+649,634+64a,62d+649",
  "fd00-fd09=62d+64a,62c+649,62c+64a,62e+649,62e+64a,635+649,635+64a,636+649,636+64a,634+62c",
  "fd0a-fd13=634+62d,634+62e,634+645,634+631,633+631,635+631,636+631,637+649,637+64a,639+649",
  "fd14-fd1d=639+64a,63a+649,63a+64a,633+649,633+64a,634+649,634+64a,62d+649,62d+64a,62c+649",
  "fd1e-fd27=62c+64a,62e+649,62e+64a,635+649,635+64a,636+649,636+64a,634+62c,634+62d,634+62e",
  "fd28-fd31=634+645,634+631,633+631,635+631,636+631,634+62c,634+62d,634+62e,634+645,633+647",
  "fd32-fd3b=634+647,637+645,633+62c,633+62d,633+62e,634+62c,634+62d,634+62e,637+645,638+645",
  "fd3c-fd3d=627+64b,627+64b",
  "fd50-fd56=62a+62c+645,62a+62d+62c,62a+62d+62c,62a+62d+645,62a+62e+645,62a+645+62c,62a+645+62d",
  "fd57-fd5d=62a+645+62e,62c+645+62d,62c+645+62d,62d+645+64a,62d+645+649,633+62d+62c,633+62c+62d",
  "fd5e-fd64=633+62c+649,633+645+62d,633+645+62d,633+645+62c,633+645+645,633+645+645,635+62d+62d",
  "fd65-fd6b=635+62d+62d,635+645+645,634+62d+645,634+62d+645,634+62c+64a,634+645+62e,634+645+62e",
  "fd6c-fd72=634+645+645,634+645+645,636+62d+649,636+62e+645,636+62e+645,637+645+62d,637+645+62d",
  "fd73-fd79=637+645+645,637+645+64a,639+62c+645,639+645+645,639+645+645,639+645+649,63a+645+645",
  "fd7a-fd80=63a+645+64a,63a+645+649,641+62e+645,641+62e+645,642+645+62d,642+645+645,644+62d+645",
  "fd81-fd87=644+62d+64a,644+62d+649,644+62c+62c,644+62c+62c,644+62e+645,644+62e+645,644+645+62d",
  "fd88-fd8e=644+645+62d,645+62d+62c,645+62d+645,645+62d+64a,645+62c+62d,645+62c+645,645+62e+62c",
  "fd8f=645+62e+645",
  "fd92-fd98=645+62c+62e,647+645+62c,647+645+645,646+62d+645,646+62d+649,646+62c+645,646+62c+645",
  "fd99-fd9f=646+62c+649,646+645+64a,646+645+649,64a+645+645,64a+645+645,628+62e+64a,62a+62c+64a",
  "fda0-fda6=62a+62c+649,62a+62e+64a,62a+62e+649,62a+645+64a,62a+645+649,62c+645+64a,62c+62d+649",
  "fda7-fdad=62c+645+649,633+62e+649,635+62d+64a,634+62d+64a,636+62d+64a,644+62c+64a,644+645+64a",
  "fdae-fdb4=64a+62d+64a,64a+62c+64a,64a+645+64a,645+645+64a,642+645+64a,646+62d+64a,642+645+62d",
  "fdb5-fdbb=644+62d+645,639+645+64a,643+645+64a,646+62c+62d,645+62e+64a,644+62c+645,643+645+645",
  "fdbc-fdc2=644+62c+645,646+62c+62d,62c+62d+64a,62d+62c+64a,645+62c+64a,641+645+64a,628+62d+64a",
  "fdc3-fdc7=643+645+645,639+62c+645,635+645+645,633+62e+64a,646+62c+64a",
  "fdf0-fdf4=635+644+6d2,642+644+6d2,627+644+644+647,627+643+628+631,645+62d+645+62f",
  "fdf5-fdf9=635+644+639+645,631+633+648+644,639+644+64a+647,648+633+644+645,635+644+649",
  "fdfa=635+644+649+20+627+644+644+647+20+639+644+64a+647+20+648+633+644+645",
  "fdfb-fdfc=62c+644+20+62c+644+627+644+647,631+6cc+627+644 fe00-fe0f= fe10-fe11=2c,3001",
  "fe13-fe18=3a,3b,21,3f,3016,3017",
  "fe31-fe43=2014,2013,5f,5f,28,29,7b,7d,3014,3015,3010,3011,300a,300b,3008,3009,300c,300d,300e",
  "fe44=300f fe47-fe48=5b,5d fe49-fe4c=20+305 fe4d-fe51=5f,5f,5f,2c,3001",
  "fe54-fe66=3b,3a,3f,21,2014,28,29,7b,7d,3014,3015,23,26,2a,2b,2d,3c,3e,3d fe68-fe6b=5c,24,25,40",
  "fe70-fe72=20+64b,640+64b,20+64c fe74=20+64d",
  "fe76-fe81=20+64e,640+64e,20+64f,640+64f,20+650,640+650,20+651,640+651,20+652,640+652,621,622",
  "fe82-fe88=622,623,623,624,624,625,625 fe89-fe8c=626 fe8d-fe8e=627,627 fe8f-fe92=628",
  "fe93-fe94=629,629 fe95-fe98=62a fe99-fe9c=62b fe9d-fea0=62c fea1-fea4=62d fea5-fea8=62e",
  "fea9-feb0=62f,62f,630,630,631,631,632,632 feb1-feb4=633 feb5-feb8=634 feb9-febc=635",
  "febd-fec0=636 fec1-fec4=637 fec5-fec8=638 fec9-fecc=639 fecd-fed0=63a fed1-fed4=641",
  "fed5-fed8=642 fed9-fedc=643 fedd-fee0=644 fee1-fee4=645 fee5-fee8=646 fee9-feec=647",
  "feed-fef0=648,648,649,649 fef1-fef4=64a",
  "fef5-fefc=644+622,644+622,644+623,644+623,644+625,644+625,644+627,644+627 feff=",
  "ff01-ff1c=21,22,23,24,25,26,27,28,29,2a,2b,2c,2d,2e,2f,30,31,32,33,34,35,36,37,38,39,3a,3b,3c",
  "ff1d-ff38=3d,3e,3f,40,61,62,63,64,65,66,67,68,69,6a,6b,6c,6d,6e,6f,70,71,72,73,74,75,76,77,78",
  "ff39-ff54=79,7a,5b,5c,5d,5e,5f,60,61,62,63,64,65,66,67,68,69,6a,6b,6c,6d,6e,6f,70,71,72,73,74",
  "ff55-ff69=75,76,77,78,79,7a,7b,7c,7d,7e,2985,2986,2e,300c,300d,3001,30fb,30f2,30a1,30a3,30a5",
  "ff6a-ff7a=30a7,30a9,30e3,30e5,30e7,30c3,30fc,30a2,30a4,30a6,30a8,30aa,30ab,30ad,30af,30b1,30b3",
  "ff7b-ff8b=30b5,30b7,30b9,30bb,30bd,30bf,30c1,30c4,30c6,30c8,30ca,30cb,30cc,30cd,30ce,30cf,30d2",
  "ff8c-ff9c=30d5,30d8,30db,30de,30df,30e0,30e1,30e2,30e4,30e6,30e8,30e9,30ea,30eb,30ec,30ed,30ef",
  "ff9d-ffad=30f3,3099,309a,,1100,1101,11aa,1102,11ac,11ad,1103,1104,1105,11b0,11b1,11b2,11b3",
  "ffae-ffbe=11b4,11b5,111a,1106,1107,1108,1121,1109,110a,110b,110c,110d,110e,110f,1110,1111,1112",
  "ffc2-ffc7=1161,1162,1163,1164,1165,1166 ffca-ffcf=1167,1168,1169,116a,116b,116c",
  "ffd2-ffd7=116d,116e,116f,1170,1171,1172 ffda-ffdc=1173,1174,1175",
  "ffe0-ffe6=a2,a3,ac,20+304,a6,a5,20a9 ffe8-ffee=2502,2190,2191,2192,2193,25a0,25cb",
  "10400-1040c=10428,10429,1042a,1042b,1042c,1042d,1042e,1042f,10430,10431,10432,10433,10434",
  "1040d-10419=10435,10436,10437,10438,10439,1043a,1043b,1043c,1043d,1043e,1043f,10440,10441",
  "1041a-10426=10442,10443,10444,10445,10446,10447,10448,10449,1044a,1044b,1044c,1044d,1044e",
  "10427=1044f",
  "104b0-104bc=104d8,104d9,104da,104db,104dc,104dd,104de,104df,104e0,104e1,104e2,104e3,104e4",
  "104bd-104c9=104e5,104e6,104e7,104e8,104e9,104ea,104eb,104ec,104ed,104ee,104ef,104f0,104f1",
  "104ca-104d3=104f2,104f3,104f4,104f5,104f6,104f7,104f8,104f9,104fa,104fb",
  "10570-1057a=10597,10598,10599,1059a,1059b,1059c,1059d,1059e,1059f,105a0,105a1",
  "1057c-10588=105a3,105a4,105a5,105a6,105a7,105a8,105a9,105aa,105ab,105ac,105ad,105ae,105af",
  "10589-1058a=105b0,105b1 1058c-10592=105b3,105b4,105b5,105b6,105b7,105b8,105b9",
  "10594-10595=105bb,105bc 10781-10785=2d0,2d1,e6,299,253",
  "10787-1079a=2a3,ab66,2a5,2a4,256,257,1d91,258,25e,2a9,264,262,260,29b,127,29c,267,284,2aa,2ab",
  "1079b-107ac=26c,1df04,a78e,26e,1df05,28e,1df06,f8,276,277,71,27a,1df08,27d,27e,280,2a8,2a6",
  "107ad-107b0=ab67,2a7,288,2c71 107b2-107ba=28f,2a1,2a2,298,1c0,1c1,1c2,1df0a,1df1e",
  "10c80-10c8c=10cc0,10cc1,10cc2,10cc3,10cc4,10cc5,10cc6,10cc7,10cc8,10cc9,10cca,10ccb,10ccc",
  "10c8d-10c99=10ccd,10cce,10ccf,10cd0,10cd1,10cd2,10cd3,10cd4,10cd5,10cd6,10cd7,10cd8,10cd9",
  "10c9a-10ca6=10cda,10cdb,10cdc,10cdd,10cde,10cdf,10ce0,10ce1,10ce2,10ce3,10ce4,10ce5,10ce6",
  "10ca7-10cb2=10ce7,10ce8,10ce9,10cea,10ceb,10cec,10ced,10cee,10cef,10cf0,10cf1,10cf2",
  "10d50-10d5c=10d70,10d71,10d72,10d73,10d74,10d75,10d76,10d77,10d78,10d79,10d7a,10d7b,10d7c",
  "10d5d-10d65=10d7d,10d7e,10d7f,10d80,10d81,10d82,10d83,10d84,10d85",
  "118a0-118ac=118c0,118c1,118c2,118c3,118c4,118c5,118c6,118c7,118c8,118c9,118ca,118cb,118cc",
  "118ad-118b9=118cd,118ce,118cf,118d0,118d1,118d2,118d3,118d4,118d5,118d6,118d7,118d8,118d9",
  "118ba-118bf=118da,118db,118dc,118dd,118de,118df",
  "16e40-16e4c=16e60,16e61,16e62,16e63,16e64,16e65,16e66,16e67,16e68,16e69,16e6a,16e6b,16e6c",
  "16e4d-16e59=16e6d,16e6e,16e6f,16e70,16e71,16e72,16e73,16e74,16e75,16e76,16e77,16e78,16e79",
  "16e5a-16e5f=16e7a,16e7b,16e7c,16e7d,16e7e,16e7f",
  "16ea0-16eac=16ebb,16ebc,16ebd,16ebe,16ebf,16ec0,16ec1,16ec2,16ec3,16ec4,16ec5,16ec6,16ec7",
  "16ead-16eb8=16ec8,16ec9,16eca,16ecb,16ecc,16ecd,16ece,16ecf,16ed0,16ed1,16ed2,16ed3",
  "1bca0-1bca3=",
  "1ccd6-1ccf0=61,62,63,64,65,66,67,68,69,6a,6b,6c,6d,6e,6f,70,71,72,73,74,75,76,77,78,79,7a,30",
  "1ccf1-1ccf9=31,32,33,34,35,36,37,38,39",
  "1d15e-1d162=1d157+1d165,1d158+1d165,1d158+1d165+1d16e,1d158+1d165+1d16f,1d158+1d165+1d170",
  "1d163-1d164=1d158+1d165+1d171,1d158+1d165+1d172 1d173-1d17a=",
  "1d1bb-1d1bf=1d1b9+1d165,1d1ba+1d165,1d1b9+1d165+1d16e,1d1ba+1d165+1d16e,1d1b9+1d165+1d16f",
  "1d1c0=1d1ba+1d165+1d16f",
  "1d400-1d41a=61,62,63,64,65,66,67,68,69,6a,6b,6c,6d,6e,6f,70,71,72,73,74,75,76,77,78,79,7a,61",
  "1d41b-1d435=62,63,64,65,66,67,68,69,6a,6b,6c,6d,6e,6f,70,71,72,73,74,75,76,77,78,79,7a,61,62",
  "1d436-1d450=63,64,65,66,67,68,69,6a,6b,6c,6d,6e,6f,70,71,72,73,74,75,76,77,78,79,7a,61,62,63",
  "1d451-1d454=64,65,66,67",
  "1d456-1d470=69,6a,6b,6c,6d,6e,6f,70,71,72,73,74,75,76,77,78,79,7a,61,62,63,64,65,66,67,68,69",
  "1d471-1d48b=6a,6b,6c,6d,6e,6f,70,71,72,73,74,75,76,77,78,79,7a,61,62,63,64,65,66,67,68,69,6a",
  "1d48c-1d49c=6b,6c,6d,6e,6f,70,71,72,73,74,75,76,77,78,79,7a,61 1d49e-1d49f=63,64 1d4a2=67",
  "1d4a5-1d4a6=6a,6b 1d4a9-1d4ac=6e,6f,70,71 1d4ae-1d4b9=73,74,75,76,77,78,79,7a,61,62,63,64",
  "1d4bb=66 1d4bd-1d4c3=68,69,6a,6b,6c,6d,6e",
  "1d4c5-1d4df=70,71,72,73,74,75,76,77,78,79,7a,61,62,63,64,65,66,67,68,69,6a,6b,6c,6d,6e,6f,70",
  "1d4e0-1d4fa=71,72,73,74,75,76,77,78,79,7a,61,62,63,64,65,66,67,68,69,6a,6b,6c,6d,6e,6f,70,71",
  "1d4fb-1d505=72,73,74,75,76,77,78,79,7a,61,62 1d507-1d50a=64,65,66,67",
  "1d50d-1d514=6a,6b,6c,6d,6e,6f,70,71 1d516-1d51c=73,74,75,76,77,78,79",
  "1d51e-1d538=61,62,63,64,65,66,67,68,69,6a,6b,6c,6d,6e,6f,70,71,72,73,74,75,76,77,78,79,7a,61",
  "1d539=62 1d53b-1d53e=64,65,66,67 1d540-1d544=69,6a,6b,6c,6d 1d546=6f",
  "1d54a-1d550=73,74,75,76,77,78,79",
  "1d552-1d56c=61,62,63,64,65,66,67,68,69,6a,6b,6c,6d,6e,6f,70,71,72,73,74,75,76,77,78,79,7a,61",
  "1d56d-1d587=62,63,64,65,66,67,68,69,6a,6b,6c,6d,6e,6f,70,71,72,73,74,75,76,77,78,79,7a,61,62",
  "1d588-1d5a2=63,64,65,66,67,68,69,6a,6b,6c,6d,6e,6f,70,71,72,73,74,75,76,77,78,79,7a,61,62,63",
  "1d5a3-1d5bd=64,65,66,67,68,69,6a,6b,6c,6d,6e,6f,70,71,72,73,74,75,76,77,78,79,7a,61,62,63,64",
  "1d5be-1d5d8=65,66,67,68,69,6a,6b,6c,6d,6e,6f,70,71,72,73,74,75,76,77,78,79,7a,61,62,63,64,65",
  "1d5d9-1d5f3=66,67,68,69,6a,6b,6c,6d,6e,6f,70,71,72,73,74,75,76,77,78,79,7a,61,62,63,64,65,66",
  "1d5f4-1d60e=67,68,69,6a,6b,6c,6d,6e,6f,70,71,72,73,74,75,76,77,78,79,7a,61,62,63,64,65,66,67",
  "1d60f-1d629=68,69,6a,6b,6c,6d,6e,6f,70,71,72,73,74,75,76,77,78,79,7a,61,62,63,64,65,66,67,68",
  "1d62a-1d644=69,6a,6b,6c,6d,6e,6f,70,71,72,73,74,75,76,77,78,79,7a,61,62,63,64,65,66,67,68,69",
  "1d645-1d65f=6a,6b,6c,6d,6e,6f,70,71,72,73,74,75,76,77,78,79,7a,61,62,63,64,65,66,67,68,69,6a",
  "1d660-1d67a=6b,6c,6d,6e,6f,70,71,72,73,74,75,76,77,78,79,7a,61,62,63,64,65,66,67,68,69,6a,6b",
  "1d67b-1d695=6c,6d,6e,6f,70,71,72,73,74,75,76,77,78,79,7a,61,62,63,64,65,66,67,68,69,6a,6b,6c",
  "1d696-1d6a5=6d,6e,6f,70,71,72,73,74,75,76,77,78,79,7a,131,237",
  "1d6a8-1d6bb=3b1,3b2,3b3,3b4,3b5,3b6,3b7,3b8,3b9,3ba,3bb,3bc,3bd,3be,3bf,3c0,3c1,3b8,3c3,3c4",
  "1d6bc-1d6cf=3c5,3c6,3c7,3c8,3c9,2207,3b1,3b2,3b3,3b4,3b5,3b6,3b7,3b8,3b9,3ba,3bb,3bc,3bd,3be",
  "1d6d0-1d6e3=3bf,3c0,3c1,3c3,3c3,3c4,3c5,3c6,3c7,3c8,3c9,2202,3b5,3b8,3ba,3c6,3c1,3c0,3b1,3b2",
  "1d6e4-1d6f7=3b3,3b4,3b5,3b6,3b7,3b8,3b9,3ba,3bb,3bc,3bd,3be,3bf,3c0,3c1,3b8,3c3,3c4,3c5,3c6",
  "1d6f8-1d70b=3c7,3c8,3c9,2207,3b1,3b2,3b3,3b4,3b5,3b6,3b7,3b8,3b9,3ba,3bb,3bc,3bd,3be,3bf,3c0",
  "1d70c-1d71f=3c1,3c3,3c3,3c4,3c5,3c6,3c7,3c8,3c9,2202,3b5,3b8,3ba,3c6,3c1,3c0,3b1,3b2,3b3,3b4",
  "1d720-1d733=3b5,3b6,3b7,3b8,3b9,3ba,3bb,3bc,3bd,3be,3bf,3c0,3c1,3b8,3c3,3c4,3c5,3c6,3c7,3c8",
  "1d734-1d747=3c9,2207,3b1,3b2,3b3,3b4,3b5,3b6,3b7,3b8,3b9,3ba,3bb,3bc,3bd,3be,3bf,3c0,3c1,3c3",
  "1d748-1d75b=3c3,3c4,3c5,3c6,3c7,3c8,3c9,2202,3b5,3b8,3ba,3c6,3c1,3c0,3b1,3b2,3b3,3b4,3b5,3b6",
  "1d75c-1d76f=3b7,3b8,3b9,3ba,3bb,3bc,3bd,3be,3bf,3c0,3c1,3b8,3c3,3c4,3c5,3c6,3c7,3c8,3c9,2207",
  "1d770-1d783=3b1,3b2,3b3,3b4,3b5,3b6,3b7,3b8,3b9,3ba,3bb,3bc,3bd,3be,3bf,3c0,3c1,3c3,3c3,3c4",
  "1d784-1d797=3c5,3c6,3c7,3c8,3c9,2202,3b5,3b8,3ba,3c6,3c1,3c0,3b1,3b2,3b3,3b4,3b5,3b6,3b7,3b8",
  "1d798-1d7ab=3b9,3ba,3bb,3bc,3bd,3be,3bf,3c0,3c1,3b8,3c3,3c4,3c5,3c6,3c7,3c8,3c9,2207,3b1,3b2",
  "1d7ac-1d7bf=3b3,3b4,3b5,3b6,3b7,3b8,3b9,3ba,3bb,3bc,3bd,3be,3bf,3c0,3c1,3c3,3c3,3c4,3c5,3c6",
  "1d7c0-1d7cb=3c7,3c8,3c9,2202,3b5,3b8,3ba,3c6,3c1,3c0,3dd,3dd",
  "1d7ce-1d7e8=30,31,32,33,34,35,36,37,38,39,30,31,32,33,34,35,36,37,38,39,30,31,32,33,34,35,36",
  "1d7e9-1d7ff=37,38,39,30,31,32,33,34,35,36,37,38,39,30,31,32,33,34,35,36,37,38,39",
  "1e030-1e043=430,431,432,433,434,435,436,437,438,43a,43b,43c,43e,43f,440,441,442,443,444,445",
  "1e044-1e057=446,447,448,44b,44d,44e,a689,4d9,456,458,4e9,4af,4cf,430,431,432,433,434,435,436",
  "1e058-1e06b=437,438,43a,43b,43e,43f,441,443,444,445,446,447,448,44a,44b,491,456,455,45f,4ab",
  "1e06c-1e06d=a651,4b1",
  "1e900-1e90c=1e922,1e923,1e924,1e925,1e926,1e927,1e928,1e929,1e92a,1e92b,1e92c,1e92d,1e92e",
  "1e90d-1e919=1e92f,1e930,1e931,1e932,1e933,1e934,1e935,1e936,1e937,1e938,1e939,1e93a,1e93b",
  "1e91a-1e921=1e93c,1e93d,1e93e,1e93f,1e940,1e941,1e942,1e943 1ee00-1ee03=627,628,62c,62f",
  "1ee05-1ee18=648,632,62d,637,64a,643,644,645,646,633,639,641,635,642,631,634,62a,62b,62e,630",
  "1ee19-1ee1f=636,638,63a,66e,6ba,6a1,66f 1ee21-1ee22=628,62c 1ee24=647 1ee27=62d",
  "1ee29-1ee32=64a,643,644,645,646,633,639,641,635,642 1ee34-1ee37=634,62a,62b,62e 1ee39=636",
  "1ee3b=63a 1ee42=62c 1ee47=62d 1ee49=64a 1ee4b=644 1ee4d-1ee4f=646,633,639 1ee51-1ee52=635,642",
  "1ee54=634 1ee57=62e 1ee59=636 1ee5b=63a 1ee5d=6ba 1ee5f=66f 1ee61-1ee62=628,62c 1ee64=647",
  "1ee67-1ee6a=62d,637,64a,643 1ee6c-1ee72=645,646,633,639,641,635,642",
  "1ee74-1ee77=634,62a,62b,62e 1ee79-1ee7c=636,638,63a,66e 1ee7e=6a1",
  "1ee80-1ee89=627,628,62c,62f,647,648,632,62d,637,64a",
  "1ee8b-1ee9b=644,645,646,633,639,641,635,642,631,634,62a,62b,62e,630,636,638,63a",
  "1eea1-1eea3=628,62c,62f 1eea5-1eea9=648,632,62d,637,64a",
  "1eeab-1eebb=644,645,646,633,639,641,635,642,631,634,62a,62b,62e,630,636,638,63a",
  "1f101-1f10a=30+2c,31+2c,32+2c,33+2c,34+2c,35+2c,36+2c,37+2c,38+2c,39+2c",
  "1f110-1f118=28+61+29,28+62+29,28+63+29,28+64+29,28+65+29,28+66+29,28+67+29,28+68+29,28+69+29",
  "1f119-1f121=28+6a+29,28+6b+29,28+6c+29,28+6d+29,28+6e+29,28+6f+29,28+70+29,28+71+29,28+72+29",
  "1f122-1f129=28+73+29,28+74+29,28+75+29,28+76+29,28+77+29,28+78+29,28+79+29,28+7a+29",
  "1f12a-1f12e=3014+73+3015,63,72,63+64,77+7a",
  "1f130-1f149=61,62,63,64,65,66,67,68,69,6a,6b,6c,6d,6e,6f,70,71,72,73,74,75,76,77,78,79,7a",
  "1f14a-1f14f=68+76,6d+76,73+64,73+73,70+70+76,77+63 1f16a-1f16c=6d+63,6d+64,6d+72 1f190=64+6a",
  "1f200-1f202=307b+304b,30b3+30b3,30b5",
  "1f210-1f21f=624b,5b57,53cc,30c7,4e8c,591a,89e3,5929,4ea4,6620,7121,6599,524d,5f8c,518d,65b0",
  "1f220-1f22f=521d,7d42,751f,8ca9,58f0,5439,6f14,6295,6355,4e00,4e09,904a,5de6,4e2d,53f3,6307",
  "1f230-1f23b=8d70,6253,7981,7a7a,5408,6e80,6709,6708,7533,5272,55b6,914d",
  "1f240-1f244=3014+672c+3015,3014+4e09+3015,3014+4e8c+3015,3014+5b89+3015,3014+70b9+3015",
  "1f245-1f248=3014+6253+3015,3014+76d7+3015,3014+52dd+3015,3014+6557+3015 1f250-1f251=5f97,53ef",
  "1fbf0-1fbf9=30,31,32,33,34,35,36,37,38,39",
  "2f800-2f80f=4e3d,4e38,4e41,20122,4f60,4fae,4fbb,5002,507a,5099,50e7,50cf,349e,2063a,514d,5154",
  "2f810-2f81f=5164,5177,2051c,34b9,5167,518d,2054b,5197,51a4,4ecc,51ac,51b5,291df,51f5,5203,34df",
  "2f820-2f82f=523b,5246,5272,5277,3515,52c7,52c9,52e4,52fa,5305,5306,5317,5349,5351,535a,5373",
  "2f830-2f83f=537d,537f,537f,537f,20a2c,7070,53ca,53df,20b63,53eb,53f1,5406,549e,5438,5448,5468",
  "2f840-2f84f=54a2,54f6,5510,5553,5563,5584,5584,5599,55ab,55b3,55c2,5716,5606,5717,5651,5674",
  "2f850-2f85f=5207,58ee,57ce,57f4,580d,578b,5832,5831,58ac,214e4,58f2,58f7,5906,591a,5922,5962",
  "2f860-2f86f=216a8,216ea,59ec,5a1b,5a27,59d8,5a66,36ee,36fc,5b08,5b3e,5b3e,219c8,5bc3,5bd8,5be7",
  "2f870-2f87f=5bf3,21b18,5bff,5c06,5f53,5c22,3781,5c60,5c6e,5cc0,5c8d,21de4,5d43,21de6,5d6e,5d6b",
  "2f880-2f88f=5d7c,5de1,5de2,382f,5dfd,5e28,5e3d,5e69,3862,22183,387c,5eb0,5eb3,5eb6,5eca,2a392",
  "2f890-2f89e=5efe,22331,22331,8201,5f22,5f22,38c7,232b8,261da,5f62,5f6b,38e3,5f9a,5fcd,5fd7",
  "2f89f-2f8ae=5ff9,6081,393a,391c,6094,226d4,60c7,6148,614c,614e,614c,617a,618e,61b2,61a4,61af",
  "2f8af-2f8be=61de,61f2,61f6,6210,621b,625d,62b1,62d4,6350,22b0c,633d,62fc,6368,6383,63e4,22bf1",
  "2f8bf-2f8ce=6422,63c5,63a9,3a2e,6469,647e,649d,6477,3a6c,654f,656c,2300a,65e3,66f8,6649,3b19",
  "2f8cf-2f8de=6691,3b08,3ae4,5192,5195,6700,669c,80ad,43d9,6717,671b,6721,675e,6753,233c3,3b49",
  "2f8df-2f8ee=67fa,6785,6852,6885,2346d,688e,681f,6914,3b9d,6942,69a3,69ea,6aa8,236a3,6adb,3c18",
  "2f8ef-2f8fd=6b21,238a7,6b54,3c4e,6b72,6b9f,6bba,6bbb,23a8d,21d0b,23afa,6c4e,23cbc,6cbf,6ccd",
  "2f8fe-2f90d=6c67,6d16,6d3e,6d77,6d41,6d69,6d78,6d85,23d1e,6d34,6e2f,6e6e,3d33,6ecb,6ec7,23ed1",
  "2f90e-2f91c=6df9,6f6e,23f5e,23f8e,6fc6,7039,701e,701b,3d96,704a,707d,7077,70ad,20525,7145",
  "2f91d-2f92b=24263,719c,243ab,7228,7235,7250,24608,7280,7295,24735,24814,737a,738b,3eac,73a5",
  "2f92c-2f93a=3eb8,3eb8,7447,745c,7471,7485,74ca,3f1b,7524,24c36,753e,24c92,7570,2219f,7610",
  "2f93b-2f949=24fa1,24fb8,25044,3ffc,4008,76f4,250f3,250f2,25119,25133,771e,771f,771f,774a,4039",
  "2f94a-2f958=778b,4046,4096,2541d,784e,788c,78cc,40e3,25626,7956,2569a,256c5,798f,79eb,412f",
  "2f959-2f967=7a40,7a4a,7a4f,2597c,25aa7,25aa7,7aee,4202,25bab,7bc6,7bc9,4227,25c80,7cd2,42a0",
  "2f968-2f976=7ce8,7ce3,7d00,25f86,7d63,4301,7dc7,7e02,7e45,4334,26228,26247,4359,262d9,7f7a",
  "2f977-2f985=2633e,7f95,7ffa,8005,264da,26523,8060,265a8,8070,2335f,43d5,80b2,8103,440b,813e",
  "2f986-2f994=5ab5,267a7,267b5,23393,2339c,8201,8204,8f9e,446b,8291,828b,829d,52b3,82b1,82b3",
  "2f995-2f9a4=82bd,82e6,26b3c,82e5,831d,8363,83ad,8323,83bd,83e7,8457,8353,83ca,83cc,83dc,26c36",
  "2f9a5-2f9b3=26d6b,26cd5,452b,84f1,84f3,8516,273ca,8564,26f2c,455d,4561,26fb1,270d2,456b,8650",
  "2f9b4-2f9c3=865c,8667,8669,86a9,8688,870e,86e2,8779,8728,876b,8786,45d7,87e1,8801,45f9,8860",
  "2f9c4-2f9d2=8863,27667,88d7,88de,4635,88fa,34bb,278ae,27966,46be,46c7,8aa0,8aed,8b8a,8c55",
  "2f9d3-2f9e1=27ca8,8cab,8cc1,8d1b,8d77,27f2f,20804,8dcb,8dbc,8df0,208de,8ed4,8f38,285d2,285ed",
  "2f9e2-2f9f1=9094,90f1,9111,2872e,911b,9238,92d7,92d8,927c,93f9,9415,28bfa,958b,4995,95b7,28d77",
  "2f9f2-2fa00=49e6,96c3,5db2,9723,29145,2921a,4a6e,4a76,97e0,2940a,4ab2,29496,980b,980b,9829",
  "2fa01-2fa10=295b6,98e2,4b33,9929,99a7,99c2,99fe,4bce,29b30,9b12,9c40,9cfd,4cce,4ced,9d67,2a0ce",
  "2fa11-2fa1d=4cf8,2a105,2a20e,2a291,9ebb,4d56,9ef9,9efe,9f05,9f0f,9f16,9f3b,2a600 e0100-e01ef="]

/-- Marks. -/
def marks : CodeTable := .ofRows [
  "300-36f 483-489 591-5bd 5bf 5c1-5c2 5c4-5c5 5c7 610-61a 64b-65f 670 6d6-6dc 6df-6e4 6e7-6e8",
  "6ea-6ed 711 730-74a 7a6-7b0 7eb-7f3 7fd 816-819 81b-823 825-827 829-82d 859-85b 897-89f",
  "8ca-903 93a-93c 93e-94f 951-957 962-963 981-983 9bc 9be-9cd 9d7 9e2-9e3 9fe-a03 a3c-a51",
  "a70-a71 a75 a81-a83 abc abe-acd ae2-ae3 afa-b03 b3c b3e-b57 b62-b63 b82 bbe-bcd bd7 c00-c04",
  "c3c c3e-c56 c62-c63 c81-c83 cbc cbe-cd6 ce2-ce3 cf3-d03 d3b-d3c d3e-d4d d57 d62-d63 d81-d83",
  "dca-ddf df2-df3 e31 e34-e3a e47-e4e eb1 eb4-ebc ec8-ece f18-f19 f35 f37 f39 f3e-f3f f71-f84",
  "f86-f87 f8d-fbc fc6 102b-103e 1056-1059 105e-1060 1062-1064 1067-106d 1071-1074 1082-108d 108f",
  "109a-109d 135d-135f 1712-1715 1732-1734 1752-1753 1772-1773 17b6-17d3 17dd 1885-1886 18a9",
  "1920-193b 1a17-1a1b 1a55-1a7f 1ab0-1b04 1b34-1b44 1b6b-1b73 1b80-1b82 1ba1-1bad 1be6-1bf3",
  "1c24-1c37 1cd0-1cd2 1cd4-1ce8 1ced 1cf4 1cf7-1cf9 1dc0-1dff 20d0-20f0 2cef-2cf1 2d7f 2de0-2dff",
  "302a-302f 3099-309a a66f-a672 a674-a67d a69e-a69f a6f0-a6f1 a802 a806 a80b a823-a827 a82c",
  "a880-a881 a8b4-a8c5 a8e0-a8f1 a8ff a926-a92d a947-a953 a980-a983 a9b3-a9c0 a9e5 aa29-aa36 aa43",
  "aa4c-aa4d aa7b-aa7d aab0 aab2-aab4 aab7-aab8 aabe-aabf aac1 aaeb-aaef aaf5-aaf6 abe3-abea",
  "abec-abed fb1e fe20-fe2f 101fd 102e0 10376-1037a 10a01-10a0f 10a38-10a3f 10ae5-10ae6",
  "10d24-10d27 10d69-10d6d 10eab-10eac 10efa-10eff 10f46-10f50 10f82-10f85 11000-11002",
  "11038-11046 11070 11073-11074 1107f-11082 110b0-110ba 110c2 11100-11102 11127-11134",
  "11145-11146 11173 11180-11182 111b3-111c0 111c9-111cc 111ce-111cf 1122c-11237 1123e 11241",
  "112df-112ea 11300-11303 1133b-1133c 1133e-1134d 11357 11362-11374 113b8-113d0 113d2",
  "113e1-113e2 11435-11446 1145e 114b0-114c3 115af-115c0 115dc-115dd 11630-11640 116ab-116b7",
  "1171d-1172b 1182c-1183a 11930-1193e 11940 11942-11943 119d1-119e0 119e4 11a01-11a0a",
  "11a33-11a39 11a3b-11a3e 11a47 11a51-11a5b 11a8a-11a99 11b60-11b67 11c2f-11c3f 11c92-11cb6",
  "11d31-11d45 11d47 11d8a-11d97 11ef3-11ef6 11f00-11f01 11f03 11f34-11f42 11f5a 13440",
  "13447-13455 1611e-1612f 16af0-16af4 16b30-16b36 16f4f 16f51-16f92 16fe4-16ff1 1bc9d-1bc9e",
  "1cf00-1cf46 1d165-1d169 1d16d-1d182 1d185-1d18b 1d1aa-1d1ad 1d242-1d244 1da00-1da36",
  "1da3b-1da6c 1da75 1da84 1da9b-1daaf 1e000-1e08f 1e130-1e136 1e2ae 1e2ec-1e2ef 1e4ec-1e4ef",
  "1e5ee-1e5ef 1e6e3 1e6e6 1e6ee-1e6ef 1e6f5 1e8d0-1e8d6 1e944-1e94a"]

/-- Marks that take no room of their own. -/
def nonspacing : CodeTable := .ofRows [
  "300-36f 483-489 591-5bd 5bf 5c1-5c2 5c4-5c5 5c7 610-61a 64b-65f 670 6d6-6dc 6df-6e4 6e7-6e8",
  "6ea-6ed 711 730-74a 7a6-7b0 7eb-7f3 7fd 816-819 81b-823 825-827 829-82d 859-85b 897-89f",
  "8ca-902 93a 93c 941-948 94d 951-957 962-963 981 9bc 9c1-9c4 9cd 9e2-9e3 9fe-a02 a3c a41-a51",
  "a70-a71 a75 a81-a82 abc ac1-ac8 acd ae2-ae3 afa-b01 b3c b3f b41-b44 b4d-b56 b62-b63 b82 bc0",
  "bcd c00 c04 c3c c3e-c40 c46-c56 c62-c63 c81 cbc cbf cc6 ccc-ccd ce2-ce3 d00-d01 d3b-d3c",
  "d41-d44 d4d d62-d63 d81 dca dd2-dd6 e31 e34-e3a e47-e4e eb1 eb4-ebc ec8-ece f18-f19 f35 f37",
  "f39 f71-f7e f80-f84 f86-f87 f8d-fbc fc6 102d-1030 1032-1037 1039-103a 103d-103e 1058-1059",
  "105e-1060 1071-1074 1082 1085-1086 108d 109d 135d-135f 1712-1714 1732-1733 1752-1753 1772-1773",
  "17b7-17bd 17c6 17c9-17d3 17dd 1885-1886 18a9 1920-1922 1927-1928 1932 1939-193b 1a17-1a18 1a1b",
  "1a56 1a58-1a60 1a62 1a65-1a6c 1a73-1a7f 1ab0-1b03 1b34 1b36-1b3a 1b3c 1b42 1b6b-1b73 1b80-1b81",
  "1ba2-1ba5 1ba8-1ba9 1bab-1bad 1be6 1be8-1be9 1bed 1bef-1bf1 1c2c-1c33 1c36-1c37 1cd0-1cd2",
  "1cd4-1ce0 1ce2-1ce8 1ced 1cf4 1cf8-1cf9 1dc0-1dff 20d0-20f0 2cef-2cf1 2d7f 2de0-2dff 302a-302d",
  "3099-309a a66f-a672 a674-a67d a69e-a69f a6f0-a6f1 a802 a806 a80b a825-a826 a82c a8c4-a8c5",
  "a8e0-a8f1 a8ff a926-a92d a947-a951 a980-a982 a9b3 a9b6-a9b9 a9bc-a9bd a9e5 aa29-aa2e aa31-aa32",
  "aa35-aa36 aa43 aa4c aa7c aab0 aab2-aab4 aab7-aab8 aabe-aabf aac1 aaec-aaed aaf6 abe5 abe8 abed",
  "fb1e fe20-fe2f 101fd 102e0 10376-1037a 10a01-10a0f 10a38-10a3f 10ae5-10ae6 10d24-10d27",
  "10d69-10d6d 10eab-10eac 10efa-10eff 10f46-10f50 10f82-10f85 11001 11038-11046 11070",
  "11073-11074 1107f-11081 110b3-110b6 110b9-110ba 110c2 11100-11102 11127-1112b 1112d-11134",
  "11173 11180-11181 111b6-111be 111c9-111cc 111cf 1122f-11231 11234 11236-11237 1123e 11241",
  "112df 112e3-112ea 11300-11301 1133b-1133c 11340 11366-11374 113bb-113c0 113ce 113d0 113d2",
  "113e1-113e2 11438-1143f 11442-11444 11446 1145e 114b3-114b8 114ba 114bf-114c0 114c2-114c3",
  "115b2-115b5 115bc-115bd 115bf-115c0 115dc-115dd 11633-1163a 1163d 1163f-11640 116ab 116ad",
  "116b0-116b5 116b7 1171d-1171f 11722-11725 11727-1172b 1182f-11837 11839-1183a 1193b-1193c",
  "1193e 11943 119d4-119db 119e0 11a01-11a0a 11a33-11a38 11a3b-11a3e 11a47 11a51-11a56",
  "11a59-11a5b 11a8a-11a96 11a98-11a99 11b60 11b62-11b64 11b66 11c30-11c3d 11c3f 11c92-11ca7",
  "11caa-11cb0 11cb2-11cb3 11cb5-11cb6 11d31-11d45 11d47 11d90-11d91 11d95 11d97 11ef3-11ef4",
  "11f00-11f01 11f36-11f3a 11f40 11f42 11f5a 13440 13447-13455 1611e-16129 1612d-1612f",
  "16af0-16af4 16b30-16b36 16f4f 16f8f-16f92 16fe4 1bc9d-1bc9e 1cf00-1cf46 1d167-1d169",
  "1d17b-1d182 1d185-1d18b 1d1aa-1d1ad 1d242-1d244 1da00-1da36 1da3b-1da6c 1da75 1da84",
  "1da9b-1daaf 1e000-1e08f 1e130-1e136 1e2ae 1e2ec-1e2ef 1e4ec-1e4ef 1e5ee-1e5ef 1e6e3 1e6e6",
  "1e6ee-1e6ef 1e6f5 1e8d0-1e8d6 1e944-1e94b"]

/-- Characters that are written from right to left. -/
def rightToLeft : CodeTable := .ofRows [
  "5be 5c0 5c3 5c6 5d0-5f4 608 60b 60d 61b-64a 66d-66f 671-6d5 6e5-6e6 6ee-6ef 6fa-710 712-72f",
  "74d-7a5 7b1-7ea 7f4-7f5 7fa 7fe-815 81a 824 828 830-858 85e-88f 8a0-8c9 fbb2-fbc2 fe73",
  "10800-1091b 10920-10a00 10a10-10a35 10a40-10ae4 10aeb-10b35 10b40-10d23 10d40-10d4f",
  "10d6f-10d85 10e80-10ea9 10ead-10ec7 10f00-10f45 10f51-10f81 10f86-10ff6 1e800-1e8cf",
  "1e922-1e943 1e94b-1ed3d"]

/-- Characters that are written in the direction of those around them. -/
def neutral : CodeTable := .ofRows [
  "a1-d7 f7 2b9-2ba 2c2-2cf 2d2-2ed 2ef-2ff 375 3f6 58a-58f 606-607 609-60a 60c 60e-60f 66a 6de",
  "6e9 7f6-7f9 9f2-9f3 9fb af1 bf3-bfa c78-c7e e3f f3a-f3d 1390-1399 1400 169b-169c 17db",
  "17f0-180a 1940-1945 19de-19ff 1b4e-1b4f 1b7f 200c-20c1 2104-214d 218a-2335 237b-2394 2396-26ab",
  "26ad-27ff 2900-2bff 2ce5-2cea 2cf9-2cff 2e00-3004 3008-3020 3030 3037 303d-303f 30a0 30fb",
  "31c0-31e5 4dc0-4dff a490-a4c6 a60d-a60f a673 a67e-a67f a700-a721 a788 a828-a82b a838-a839",
  "a874-a877 ab6a-ab6b fbc3-fdff fe45-fe46 10101 10140-1018c 10190-101a0 1091f 10b39-10b3f 10d6e",
  "10d8e-10d8f 10ed0-10ed8 11052-11065 113d4-113d8 11660-1166c 11be1 11fd5-11ff1 16d6d-16d6f",
  "16fe2 1cc00-1cef0 1d1e9-1d241 1d245 1d300-1d356 1e2ff 1e5ff 1eef0-1f12f 1f16d-1f16f 1f1ad",
  "1f260-1fbfa"]

/-- Letters that join with the one behind them. -/
def joiningLeft : CodeTable := .ofRows [
  "620 626 628 62a-62e 633-63f 641-647 649-64a 66e-66f 679-687 69a-6bf 6c1-6c2 6cc 6ce 6d0-6d1",
  "6fa-6fc 6ff 712-714 71a-71d 71f-727 729 72b 72d-72e 74e-758 75c-76a 76d-770 772 775-777",
  "77a-77f 7ca-7ea 841-845 848 84a-853 855 860 862-865 868 886 889-88d 88f-8a9 8af-8b0 8b3-8b8",
  "8ba-8c8 1807 1820-1878 1887-18aa a840-a872 10ac0-10ac4 10acd 10ad3-10adc 10ade-10ae0",
  "10aeb-10aee 10b80 10b82 10b86-10b88 10b8a-10b8b 10b8d 10b90 10bad-10bae 10d00-10d21 10d23",
  "10f30-10f32 10f34-10f44 10f51-10f53 10f70-10f73 10f76-10f81 10fb0 10fb2-10fb3 10fb8",
  "10fbb-10fbc 10fbe-10fbf 10fc1 10fc4 10fca-10fcb 1e922-1e943"]

/-- Letters that join with the one before them. -/
def joiningRight : CodeTable := .ofRows [
  "620 622-63f 641-64a 66e-673 679-6d3 6d5 6ee-6ef 6fa-6fc 6ff 710-77f 7ca-7ea 840-858 860",
  "862-865 867-882 886 889-8ac 8ae-8c8 1807 1820-1878 1887-18aa a840-a871 10ac0-10ac5 10ac7",
  "10ac9-10aca 10ace-10ad6 10ad8-10ae1 10ae4-10aef 10b80-10b91 10ba9-10bae 10d01-10d23",
  "10f30-10f44 10f51-10f54 10f70-10f81 10fb0 10fb2-10fb6 10fb8-10fbf 10fc1-10fc4 10fc9-10fca",
  "1e922-1e943"]

end RamlBuild.Domain
