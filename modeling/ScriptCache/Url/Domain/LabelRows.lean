/-!
# Properties of the characters in labels
-/

namespace ScriptCache.Domain

/-- Characters that combine with the one in front of them. -/
def markRows : String := "
300-36fM 483-489M 591-5bdM 5bfM 5c1-5c2M 5c4-5c5M 5c7M 610-61aM 64b-65fM 670M 6d6-6dcM 6df-6e4M
6e7-6e8M 6ea-6edM 711M 730-74aM 7a6-7b0M 7eb-7f3M 7fdM 816-819M 81b-823M 825-827M 829-82dM
859-85bM 898-89fM 8ca-903M 93a-93cM 93e-94fM 951-957M 962-963M 981-983M 9bcM 9be-9cdM 9d7M
9e2-9e3M 9fe-a03M a3c-a51M a70-a71M a75M a81-a83M abcM abe-acdM ae2-ae3M afa-b03M b3cM b3e-b57M
b62-b63M b82M bbe-bcdM bd7M c00-c04M c3cM c3e-c56M c62-c63M c81-c83M cbcM cbe-cd6M ce2-ce3M
d00-d03M d3b-d3cM d3e-d4dM d57M d62-d63M d81-d83M dca-ddfM df2-df3M e31M e34-e3aM e47-e4eM eb1M
eb4-ebcM ec8-ecdM f18-f19M f35M f37M f39M f3e-f3fM f71-f84M f86-f87M f8d-fbcM fc6M 102b-103eM
1056-1059M 105e-1060M 1062-1064M 1067-106dM 1071-1074M 1082-108dM 108fM 109a-109dM 135d-135fM
1712-1715M 1732-1734M 1752-1753M 1772-1773M 17b6-17d3M 17ddM 1885-1886M 18a9M 1920-193bM
1a17-1a1bM 1a55-1a7fM 1ab0-1aceM 1b00-1b04M 1b34-1b44M 1b6b-1b73M 1b80-1b82M 1ba1-1badM
1be6-1bf3M 1c24-1c37M 1cd0-1cd2M 1cd4-1ce8M 1cedM 1cf4M 1cf7-1cf9M 1dc0-1dffM 20d0-20f0M
2cef-2cf1M 2d7fM 2de0-2dffM 302a-302fM 3099-309aM a66f-a672M a674-a67dM a69e-a69fM a6f0-a6f1M
a802M a806M a80bM a823-a827M a82cM a880-a881M a8b4-a8c5M a8e0-a8f1M a8ffM a926-a92dM a947-a953M
a980-a983M a9b3-a9c0M a9e5M aa29-aa36M aa43M aa4c-aa4dM aa7b-aa7dM aab0M aab2-aab4M aab7-aab8M
aabe-aabfM aac1M aaeb-aaefM aaf5-aaf6M abe3-abeaM abec-abedM fb1eM fe20-fe2fM 101fdM 102e0M
10376-1037aM 10a01-10a0fM 10a38-10a3fM 10ae5-10ae6M 10d24-10d27M 10eab-10eacM 10f46-10f50M
10f82-10f85M 11000-11002M 11038-11046M 11070M 11073-11074M 1107f-11082M 110b0-110baM 110c2M
11100-11102M 11127-11134M 11145-11146M 11173M 11180-11182M 111b3-111c0M 111c9-111ccM 111ce-111cfM
1122c-11237M 1123eM 112df-112eaM 11300-11303M 1133b-1133cM 1133e-1134dM 11357M 11362-11374M
11435-11446M 1145eM 114b0-114c3M 115af-115c0M 115dc-115ddM 11630-11640M 116ab-116b7M 1171d-1172bM
1182c-1183aM 11930-1193eM 11940M 11942-11943M 119d1-119e0M 119e4M 11a01-11a0aM 11a33-11a39M
11a3b-11a3eM 11a47M 11a51-11a5bM 11a8a-11a99M 11c2f-11c3fM 11c92-11cb6M 11d31-11d45M 11d47M
11d8a-11d97M 11ef3-11ef6M 16af0-16af4M 16b30-16b36M 16f4fM 16f51-16f92M 16fe4-16ff1M 1bc9d-1bc9eM
1cf00-1cf46M 1d165-1d169M 1d16d-1d182M 1d185-1d18bM 1d1aa-1d1adM 1d242-1d244M 1da00-1da36M
1da3b-1da6cM 1da75M 1da84M 1da9b-1daafM 1e000-1e02aM 1e130-1e136M 1e2aeM 1e2ec-1e2efM
1e8d0-1e8d6M 1e944-1e94aM
"

/-- How letters join their neighbours: on the left, on the right, on both sides, or, as those
with `T`, not at all while the others join across them. -/
def joiningRows : String := "
300-36fT 483-489T 591-5bdT 5bfT 5c1-5c2T 5c4-5c5T 5c7T 610-61aT 620D 622-625R 626D 627R 628D 629R
62a-62eD 62f-632R 633-63fD 640C 641-647D 648R 649-64aD 64b-65fT 66e-66fD 670T 671-673R 679-687D
688-699R 69a-6bfD 6c0R 6c1-6c2D 6c3-6cbR 6ccD 6cdR 6ceD 6cfR 6d0-6d1D 6d2-6d3R 6d5R 6d6-6dcT
6df-6e4T 6e7-6e8T 6ea-6edT 6ee-6efR 6fa-6fcD 6ffD 710R 711T 712-714D 715-719R 71a-71dD 71eR
71f-727D 728R 729D 72aR 72bD 72cR 72d-72eD 72fR 730-74aT 74dR 74e-758D 759-75bR 75c-76aD 76b-76cR
76d-770D 771R 772D 773-774R 775-777D 778-779R 77a-77fD 7a6-7b0T 7ca-7eaD 7eb-7f3T 7faC 7fdT
816-819T 81b-823T 825-827T 829-82dT 840R 841-845D 846-847R 848D 849R 84a-853D 854R 855D 856-858R
859-85bT 860D 862-865D 867R 868D 869-882R 883-885C 886D 889-88dD 88eR 88fD 897-89fT 8a0-8a9D
8aa-8acR 8aeR 8af-8b0D 8b1-8b2R 8b3-8b8D 8b9R 8ba-8c8D 8ca-902T 93aT 93cT 941-948T 94dT 951-957T
962-963T 981T 9bcT 9c1-9c4T 9cdT 9e2-9e3T 9fe-a02T a3cT a41-a51T a70-a71T a75T a81-a82T abcT
ac1-ac8T acdT ae2-ae3T afa-b01T b3cT b3fT b41-b44T b4d-b56T b62-b63T b82T bc0T bcdT c00T c04T
c3cT c3e-c40T c46-c56T c62-c63T c81T cbcT cbfT cc6T ccc-ccdT ce2-ce3T d00-d01T d3b-d3cT d41-d44T
d4dT d62-d63T d81T dcaT dd2-dd6T e31T e34-e3aT e47-e4eT eb1T eb4-ebcT ec8-eceT f18-f19T f35T f37T
f39T f71-f7eT f80-f84T f86-f87T f8d-fbcT fc6T 102d-1030T 1032-1037T 1039-103aT 103d-103eT
1058-1059T 105e-1060T 1071-1074T 1082T 1085-1086T 108dT 109dT 135d-135fT 1712-1714T 1732-1733T
1752-1753T 1772-1773T 17b7-17bdT 17c6T 17c9-17d3T 17ddT 1807D 180aC 1820-1878D 1885-1886T
1887-18a8D 18a9T 18aaD 1920-1922T 1927-1928T 1932T 1939-193bT 1a17-1a18T 1a1bT 1a56T 1a58-1a60T
1a62T 1a65-1a6cT 1a73-1a7fT 1ab0-1b03T 1b34T 1b36-1b3aT 1b3cT 1b42T 1b6b-1b73T 1b80-1b81T
1ba2-1ba5T 1ba8-1ba9T 1bab-1badT 1be6T 1be8-1be9T 1bedT 1bef-1bf1T 1c2c-1c33T 1c36-1c37T
1cd0-1cd2T 1cd4-1ce0T 1ce2-1ce8T 1cedT 1cf4T 1cf8-1cf9T 1dc0-1dffT 200dC 20d0-20f0T 2cef-2cf1T
2d7fT 2de0-2dffT 302a-302dT 3099-309aT a66f-a672T a674-a67dT a69e-a69fT a6f0-a6f1T a802T a806T
a80bT a825-a826T a82cT a840-a871D a872L a8c4-a8c5T a8e0-a8f1T a8ffT a926-a92dT a947-a951T
a980-a982T a9b3T a9b6-a9b9T a9bc-a9bdT a9e5T aa29-aa2eT aa31-aa32T aa35-aa36T aa43T aa4cT aa7cT
aab0T aab2-aab4T aab7-aab8T aabe-aabfT aac1T aaec-aaedT aaf6T abe5T abe8T abedT fb1eT fe20-fe2fT
101fdT 102e0T 10376-1037aT 10a01-10a0fT 10a38-10a3fT 10ac0-10ac4D 10ac5R 10ac7R 10ac9-10acaR
10acdL 10ace-10ad2R 10ad3-10ad6D 10ad7L 10ad8-10adcD 10addR 10ade-10ae0D 10ae1R 10ae4R
10ae5-10ae6T 10aeb-10aeeD 10aefR 10b80D 10b81R 10b82D 10b83-10b85R 10b86-10b88D 10b89R
10b8a-10b8bD 10b8cR 10b8dD 10b8e-10b8fR 10b90D 10b91R 10ba9-10bacR 10bad-10baeD 10d00L
10d01-10d21D 10d22R 10d23D 10d24-10d27T 10d69-10d6dT 10eab-10eacT 10ec2R 10ec3-10ec4D
10ec6-10ec7D 10efa-10effT 10f30-10f32D 10f33R 10f34-10f44D 10f46-10f50T 10f51-10f53D 10f54R
10f70-10f73D 10f74-10f75R 10f76-10f81D 10f82-10f85T 10fb0D 10fb2-10fb3D 10fb4-10fb6R 10fb8D
10fb9-10fbaR 10fbb-10fbcD 10fbdR 10fbe-10fbfD 10fc1D 10fc2-10fc3R 10fc4D 10fc9R 10fcaD 10fcbL
11001T 11038-11046T 11070T 11073-11074T 1107f-11081T 110b3-110b6T 110b9-110baT 110c2T
11100-11102T 11127-1112bT 1112d-11134T 11173T 11180-11181T 111b6-111beT 111c9-111ccT 111cfT
1122f-11231T 11234T 11236-11237T 1123eT 11241T 112dfT 112e3-112eaT 11300-11301T 1133b-1133cT
11340T 11366-11374T 113bb-113c0T 113ceT 113d0T 113d2T 113e1-113e2T 11438-1143fT 11442-11444T
11446T 1145eT 114b3-114b8T 114baT 114bf-114c0T 114c2-114c3T 115b2-115b5T 115bc-115bdT
115bf-115c0T 115dc-115ddT 11633-1163aT 1163dT 1163f-11640T 116abT 116adT 116b0-116b5T 116b7T
1171dT 1171fT 11722-11725T 11727-1172bT 1182f-11837T 11839-1183aT 1193b-1193cT 1193eT 11943T
119d4-119dbT 119e0T 11a01-11a0aT 11a33-11a38T 11a3b-11a3eT 11a47T 11a51-11a56T 11a59-11a5bT
11a8a-11a96T 11a98-11a99T 11b60T 11b62-11b64T 11b66T 11c30-11c3dT 11c3fT 11c92-11ca7T
11caa-11cb0T 11cb2-11cb3T 11cb5-11cb6T 11d31-11d45T 11d47T 11d90-11d91T 11d95T 11d97T
11ef3-11ef4T 11f00-11f01T 11f36-11f3aT 11f40T 11f42T 11f5aT 13440T 13447-13455T 1611e-16129T
1612d-1612fT 16af0-16af4T 16b30-16b36T 16f4fT 16f8f-16f92T 16fe4T 1bc9d-1bc9eT 1cf00-1cf46T
1d167-1d169T 1d17b-1d182T 1d185-1d18bT 1d1aa-1d1adT 1d242-1d244T 1da00-1da36T 1da3b-1da6cT 1da75T
1da84T 1da9b-1daafT 1e000-1e08fT 1e130-1e136T 1e2aeT 1e2ec-1e2efT 1e4ec-1e4efT 1e5ee-1e5efT
1e6e3T 1e6e6T 1e6ee-1e6efT 1e6f5T 1e8d0-1e8d6T 1e922-1e943D 1e944-1e94bT
"

/-- The directions of characters that are not written from left to right. -/
def directionRows : String := "
a1O a2-a5T a6-aeO b0-b1T b6-d7O f7O 2b9-2baO 2c2-2cfO 2d2-2edO 2ef-2ffO 300-36fM 375O 3f6O
483-489M 58a-58eO 58fT 591-5bdM 5beR 5bfM 5c0R 5c1-5c2M 5c3R 5c4-5c5M 5c6R 5c7M 5d0-5f4R 606-607O
608A 609-60aT 60bA 60cC 60dA 60e-60fO 610-61aM 61b-64aA 64b-65fM 660-669N 66aT 66b-66cN 66d-66fA
670M 671-6d5A 6d6-6dcM 6deO 6df-6e4M 6e5-6e6A 6e7-6e8M 6e9O 6ea-6edM 6ee-6efA 6f0-6f9E 6fa-710A
711M 712-72fA 730-74aM 74d-7a5A 7a6-7b0M 7b1A 7c0-7eaR 7eb-7f3M 7f4-7f5R 7f6-7f9O 7faR 7fdM
7fe-815R 816-819M 81aR 81b-823M 824R 825-827M 828R 829-82dM 830-858R 859-85bM 85eR 860-88eA
898-89fM 8a0-8c9A 8ca-902M 93aM 93cM 941-948M 94dM 951-957M 962-963M 981M 9bcM 9c1-9c4M 9cdM
9e2-9e3M 9f2-9f3T 9fbT 9fe-a02M a3cM a41-a51M a70-a71M a75M a81-a82M abcM ac1-ac8M acdM ae2-ae3M
af1T afa-b01M b3cM b3fM b41-b44M b4d-b56M b62-b63M b82M bc0M bcdM bf3-bf8O bf9T bfaO c00M c04M
c3cM c3e-c40M c46-c56M c62-c63M c78-c7eO c81M cbcM ccc-ccdM ce2-ce3M d00-d01M d3b-d3cM d41-d44M
d4dM d62-d63M d81M dcaM dd2-dd6M e31M e34-e3aM e3fT e47-e4eM eb1M eb4-ebcM ec8-ecdM f18-f19M f35M
f37M f39M f3a-f3dO f71-f7eM f80-f84M f86-f87M f8d-fbcM fc6M 102d-1030M 1032-1037M 1039-103aM
103d-103eM 1058-1059M 105e-1060M 1071-1074M 1082M 1085-1086M 108dM 109dM 135d-135fM 1390-1399O
1400O 169b-169cO 1712-1714M 1732-1733M 1752-1753M 1772-1773M 17b7-17bdM 17c6M 17c9-17d3M 17dbT
17ddM 17f0-180aO 1885-1886M 18a9M 1920-1922M 1927-1928M 1932M 1939-193bM 1940-1945O 19de-19ffO
1a17-1a18M 1a1bM 1a56M 1a58-1a60M 1a62M 1a65-1a6cM 1a73-1a7fM 1ab0-1aceM 1b00-1b03M 1b34M
1b36-1b3aM 1b3cM 1b42M 1b6b-1b73M 1b80-1b81M 1ba2-1ba5M 1ba8-1ba9M 1bab-1badM 1be6M 1be8-1be9M
1bedM 1bef-1bf1M 1c2c-1c33M 1c36-1c37M 1cd0-1cd2M 1cd4-1ce0M 1ce2-1ce8M 1cedM 1cf4M 1cf8-1cf9M
1dc0-1dffM 200c-200dB 2010-2027O 2030-2032T 2035-2043O 2044C 2045-205eO 20a0-20c0T 20d0-20f0M
2104-2129O 212eT 213a-214dO 218a-2211O 2212S 2213T 2214-2335O 237b-2394O 2396-2426O 2440-26abO
26ad-27ffO 2900-2b95O 2b97-2bffO 2ce5-2ceaO 2cef-2cf1M 2cf9-2cffO 2d7fM 2de0-2dffM 2e00-3004O
3008-3020O 302a-302dM 3030O 3037O 303d-303fO 3099-309aM 30a0O 30fbO 31c0-31e3O 4dc0-4dffO
a490-a4c6O a60d-a60fO a66f-a672M a673O a674-a67dM a67e-a67fO a69e-a69fM a6f0-a6f1M a700-a721O
a788O a802M a806M a80bM a825-a826M a828-a82bO a82cM a838-a839T a874-a877O a8c4-a8c5M a8e0-a8f1M
a8ffM a926-a92dM a947-a951M a980-a982M a9b3M a9b6-a9b9M a9bc-a9bdM a9e5M aa29-aa2eM aa31-aa32M
aa35-aa36M aa43M aa4cM aa7cM aab0M aab2-aab4M aab7-aab8M aabe-aabfM aac1M aaec-aaedM aaf6M
ab6a-ab6bO abe5M abe8M abedM fb1eM fbb2-fbc2A fd3e-fd4fO fdcf-fdffO fe20-fe2fM fe45-fe46O fe73A
10101O 10140-1018cO 10190-101a0O 101fdM 102e0M 102e1-102fbE 10376-1037aM 10800-1091bR 1091fO
10920-1093fR 10980-10a00R 10a01-10a0fM 10a10-10a35R 10a38-10a3fM 10a40-10ae4R 10ae5-10ae6M
10aeb-10b35R 10b39-10b3fO 10b40-10cffR 10d00-10d23A 10d24-10d27M 10d30-10d39N 10e60-10e7eN
10e80-10ea9R 10eab-10eacM 10ead-10eb1R 10f00-10f27R 10f30-10f45A 10f46-10f50M 10f51-10f59A
10f70-10f81R 10f82-10f85M 10f86-10ff6R 11001M 11038-11046M 11052-11065O 11070M 11073-11074M
1107f-11081M 110b3-110b6M 110b9-110baM 110c2M 11100-11102M 11127-1112bM 1112d-11134M 11173M
11180-11181M 111b6-111beM 111c9-111ccM 111cfM 1122f-11231M 11234M 11236-11237M 1123eM 112dfM
112e3-112eaM 11300-11301M 1133b-1133cM 11340M 11366-11374M 11438-1143fM 11442-11444M 11446M
1145eM 114b3-114b8M 114baM 114bf-114c0M 114c2-114c3M 115b2-115b5M 115bc-115bdM 115bf-115c0M
115dc-115ddM 11633-1163aM 1163dM 1163f-11640M 11660-1166cO 116abM 116adM 116b0-116b5M 116b7M
1171d-1171fM 11722-11725M 11727-1172bM 1182f-11837M 11839-1183aM 1193b-1193cM 1193eM 11943M
119d4-119dbM 119e0M 11a01-11a06M 11a09-11a0aM 11a33-11a38M 11a3b-11a3eM 11a47M 11a51-11a56M
11a59-11a5bM 11a8a-11a96M 11a98-11a99M 11c30-11c3dM 11c92-11ca7M 11caa-11cb0M 11cb2-11cb3M
11cb5-11cb6M 11d31-11d45M 11d47M 11d90-11d91M 11d95M 11d97M 11ef3-11ef4M 11fd5-11fdcO
11fdd-11fe0T 11fe1-11ff1O 16af0-16af4M 16b30-16b36M 16f4fM 16f8f-16f92M 16fe2O 16fe4M
1bc9d-1bc9eM 1cf00-1cf46M 1d167-1d169M 1d17b-1d182M 1d185-1d18bM 1d1aa-1d1adM 1d1e9-1d241O
1d242-1d244M 1d245O 1d300-1d356O 1da00-1da36M 1da3b-1da6cM 1da75M 1da84M 1da9b-1daafM
1e000-1e02aM 1e130-1e136M 1e2aeM 1e2ec-1e2efM 1e2ffT 1e800-1e8cfR 1e8d0-1e8d6M 1e922-1e943R
1e944-1e94aM 1e94b-1e95fR 1ec71-1ed3dA 1eef0-1f12fO 1f16d-1f16fO 1f1adO 1f260-1f6d7O 1f6dd-1f773O
1f780-1f7d8O 1f7e0-1f8b1O 1f900-1fa53O 1fa60-1fa74O 1fa78-1fa86O 1fa90-1faacO 1fab0-1fabaO
1fac0-1fac5O 1fad0-1fad9O 1fae0-1fae7O 1faf0-1faf6O 1fb00-1fbcaO
"

end ScriptCache.Domain
