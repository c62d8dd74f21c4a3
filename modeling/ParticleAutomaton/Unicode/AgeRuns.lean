namespace ParticleAutomaton.Unicode

/-- The versions of the standard that added characters. -/
def ageNames : List String := [
  "1.1 2.0 2.1 3.0 3.1 3.2 4.0 4.1 5.0 5.1 5.2 6.0 6.1 6.2 6.3 7.0 8.0 9.0 10.0 11.0 12.0 12.1",
  "13.0 14.0 15.0 15.1 16.0"]

/-- The versions of all code points in order, each by its place from one on and with the length of
its run; those without a version have zero. -/
def ageRuns : List String := [
  "1:502 4:4 1:30 4:8 6:1 7:1 4:18 7:3 8:11 9:14 1:89 4:5 7:2 1:47 4:1 1:10 4:5 7:17 1:70 4:9 6:1",
  "7:8 8:5 7:3 1:2 4:1 6:13 10:4 1:2 10:2 0:2 1:1 9:3 1:1 16:1 0:4 1:7 0:1 1:1 0:1 1:20 0:1 1:44",
  "10:1 1:7 4:1 6:2 1:1 4:1 1:1 4:1 1:1 4:1 1:1 4:1 1:18 5:2 6:1 7:5 8:4 4:1 1:12 4:1 1:66 4:1",
  "1:12 4:1 1:41 10:1 4:2 6:2 4:4 1:53 6:2 1:2 6:2 1:2 6:2 9:1 1:28 4:2 1:8 8:2 1:2 9:6 6:16 9:4",
  "10:16 11:2 12:2 16:8 0:1 1:38 0:2 1:7 20:1 1:39 20:1 1:1 4:1 0:2 16:2 13:1 0:1 2:17 8:1 2:13",
  "1:10 9:1 1:9 2:1 8:3 0:8 1:27 0:4 20:1 1:5 0:11 7:4 13:1 16:1 10:5 8:1 1:1 7:9 10:5 1:1 15:1",
  "24:1 8:1 1:1 12:1 1:26 10:5 1:19 4:3 7:3 8:6 12:1 1:14 6:2 1:72 4:2 1:5 4:1 1:15 4:1 1:30 7:2",
  "1:10 4:5 7:1 4:14 0:1 4:30 7:3 4:27 0:2 7:3 8:30 10:18 4:49 6:1 0:14 9:59 0:2 20:3 11:46 0:2",
  "11:15 0:1 12:28 0:2 12:1 0:1 19:11 0:5 24:31 0:1 24:2 0:5 27:1 24:8 13:1 16:1 13:11 16:6 17:2",
  "24:1 18:8 23:10 24:11 20:1 18:15 17:1 13:27 16:1 11:1 1:3 7:1 1:53 12:2 1:18 11:1 12:1 1:5",
  "11:1 12:2 1:25 10:2 12:5 16:1 11:2 9:2 8:1 9:2 16:1 1:3 0:1 1:8 0:2 1:2 0:2 1:22 0:1 1:7 0:1",
  "1:1 0:3 1:4 0:2 1:1 7:1 1:7 0:2 1:2 0:2 1:3 8:1 0:8 1:1 0:4 1:2 0:1 1:5 0:2 1:21 11:1 19:2",
  "20:1 0:2 7:1 1:1 7:1 0:1 1:6 0:4 1:2 0:2 1:22 0:1 1:7 0:1 1:2 0:1 1:2 0:1 1:2 0:2 1:1 0:1 1:5",
  "0:4 1:2 0:2 1:3 0:3 10:1 0:7 1:4 0:1 1:1 0:7 1:15 10:1 20:1 0:10 1:3 0:1 1:7 7:1 1:1 0:1 1:3",
  "0:1 1:22 0:1 1:7 0:1 1:2 0:1 1:5 0:2 1:10 0:1 1:3 0:1 1:3 0:2 1:1 0:15 1:1 7:3 0:2 1:10 13:1",
  "7:1 0:7 17:1 19:6 0:1 1:3 0:1 1:8 0:2 1:2 0:2 1:22 0:1 1:7 0:1 1:2 0:1 7:1 1:4 0:2 1:8 10:1",
  "0:2 1:2 0:2 1:3 0:7 23:1 1:2 0:4 1:2 0:1 1:3 10:2 0:2 1:11 7:1 12:6 0:10 1:2 0:1 1:6 0:3 1:3",
  "0:1 1:4 0:3 1:2 0:1 1:1 0:1 1:2 0:3 1:2 0:3 1:3 0:3 1:8 8:1 1:3 0:4 1:5 0:3 1:3 0:1 1:4 0:2",
  "10:1 0:6 1:1 0:14 8:1 1:12 7:8 0:5 16:1 1:3 20:1 1:8 0:1 1:3 0:1 1:23 0:1 1:10 16:1 1:5 0:2",
  "24:1 10:1 1:7 0:1 1:3 0:1 1:4 0:7 1:2 0:1 10:2 17:1 0:2 24:1 0:2 1:2 10:2 0:2 1:10 0:7 21:1",
  "10:8 18:1 16:1 1:2 20:1 1:8 0:1 1:3 0:1 1:23 0:1 1:10 0:1 1:5 0:2 7:2 1:7 0:1 1:3 0:1 1:4 0:7",
  "1:2 0:6 24:1 1:1 0:1 1:2 9:2 0:2 1:10 0:1 9:2 25:1 0:12 19:1 16:1 1:2 23:1 1:8 0:1 1:3 0:1",
  "1:23 12:1 1:16 12:1 19:2 10:1 1:6 10:1 0:1 1:3 0:1 1:4 12:1 18:1 0:4 18:3 1:1 18:7 17:1 1:2",
  "10:2 0:2 1:10 10:6 18:3 10:7 0:1 23:1 4:2 0:1 4:18 0:3 4:24 0:1 4:9 0:1 4:1 0:2 4:7 0:3 4:1",
  "0:4 4:6 0:1 4:1 0:1 4:8 0:6 16:10 0:2 4:3 0:12 1:58 0:4 1:29 0:37 1:2 0:1 1:1 0:1 21:1 1:2",
  "21:1 1:1 0:1 21:1 1:1 21:6 1:4 21:1 1:7 21:1 1:3 0:1 1:1 0:1 1:1 21:2 1:2 21:1 1:13 21:1 1:3",
  "0:2 1:5 0:1 1:1 0:1 1:6 25:1 0:1 1:10 0:2 1:2 13:2 0:32 2:72 0:1 2:33 4:1 10:2 0:4 2:27 12:4",
  "2:6 4:1 2:1 0:1 2:21 4:3 2:7 4:1 2:1 4:3 0:1 4:15 0:1 10:1 4:1 8:2 10:3 11:4 12:2 0:37 4:34",
  "10:1 4:5 10:1 4:2 10:1 4:7 10:3 4:4 10:6 4:26 10:64 11:4 10:2 1:38 0:1 13:1 0:5 13:1 0:2 1:39",
  "6:2 8:2 1:1 8:1 13:3 1:90 11:5 1:68 11:5 1:82 11:6 4:7 8:1 4:63 8:1 4:1 0:1 4:4 0:2 4:7 0:1",
  "4:1 0:1 4:4 0:2 4:39 8:1 4:1 0:1 4:4 0:2 4:31 8:1 4:1 0:1 4:4 0:2 4:7 0:1 4:1 0:1 4:4 0:2 4:7",
  "8:1 4:7 0:1 4:23 8:1 4:31 8:1 4:1 0:1 4:4 0:2 4:7 8:1 4:39 8:1 4:19 0:2 12:2 8:2 4:28 0:3 8:26",
  "0:6 4:85 17:1 0:2 17:6 0:2 11:1 4:630 11:9 4:29 0:3 4:81 16:8 0:7 6:13 24:1 6:7 24:1 0:9 24:1",
  "6:23 0:9 6:20 0:12 6:13 0:1 6:3 0:1 6:2 0:12 4:93 7:1 0:2 4:10 0:6 7:10 0:6 4:15 24:1 4:10 0:6",
  "4:88 20:1 0:7 4:42 10:1 0:5 11:70 0:10 7:29 16:2 0:1 7:12 0:4 7:12 0:4 7:1 0:3 7:42 0:2 7:5",
  "0:11 8:42 11:2 0:4 8:26 0:6 8:10 11:1 0:3 8:2 7:32 8:28 0:2 8:2 11:63 0:1 11:29 0:2 11:11 0:6",
  "11:10 0:6 11:14 0:2 16:15 23:2 24:14 0:49 9:76 24:1 0:1 27:2 9:45 24:2 27:1 10:43 13:3 10:12",
  "13:6 12:52 0:8 12:4 10:56 0:3 10:15 0:3 10:51 18:9 27:2 0:5 20:43 0:2 20:3 13:8 0:8 11:35 13:4",
  "19:1 16:2 21:1 0:5 7:108 8:88 9:7 10:28 16:15 19:4 24:1 18:1 12:1 11:1 9:2 1:155 2:1 10:4 1:90",
  "10:6 1:22 0:2 1:6 0:2 1:38 0:2 1:6 0:2 1:8 0:1 1:1 0:1 1:1 0:1 1:1 0:1 1:31 0:2 1:53 0:1 1:15",
  "0:1 1:14 0:2 1:6 0:1 1:19 0:2 1:3 0:1 1:9 0:1 1:47 4:1 1:23 6:1 4:6 6:5 7:2 8:2 6:1 8:7 6:5",
  "10:1 0:1 15:4 1:7 6:1 0:2 1:27 0:1 8:5 12:8 0:3 1:11 2:1 3:1 4:3 6:2 8:4 11:3 12:1 14:1 16:3",
  "17:1 19:1 24:1 0:15 1:18 4:2 6:7 8:1 9:4 10:1 0:15 1:57 4:2 7:1 8:1 6:15 8:1 9:2 10:1 11:3",
  "1:48 4:1 9:1 10:4 11:1 17:2 0:4 1:91 4:9 6:12 1:242 6:14 1:1 4:1 1:121 4:1 6:1 4:30 6:52 7:2",
  "8:11 9:12 11:1 12:11 16:7 18:4 19:1 1:37 4:2 27:3 0:22 1:11 0:21 1:139 6:20 7:1 1:150 6:10",
  "1:80 4:8 6:8 1:20 7:2 6:2 8:1 4:1 1:86 4:2 6:12 8:2 6:10 7:8 8:11 10:1 11:2 7:2 8:16 9:1 10:10",
  "11:3 10:4 11:10 12:1 11:19 12:1 11:1 12:4 11:24 16:1 1:4 12:1 1:4 12:2 1:28 12:1 1:35 12:1 1:1",
  "12:1 1:4 12:3 1:1 11:1 1:7 12:2 1:7 6:14 1:31 12:3 1:24 12:1 1:14 12:1 8:7 9:4 13:1 10:1 13:1",
  "12:2 6:28 10:4 6:16 4:256 6:512 7:14 8:6 9:7 10:5 9:4 10:41 16:3 10:5 11:5 16:26 0:2 16:32 0:1",
  "23:1 16:34 20:3 16:12 21:1 16:8 19:1 20:25 17:4 20:15 21:1 8:47 24:1 8:47 24:1 9:13 10:3 11:1",
  "10:3 9:4 10:6 11:2 8:107 11:7 13:2 0:5 8:45 0:1 13:1 0:5 13:1 0:2 8:54 13:2 0:7 8:1 12:1 0:14",
  "12:1 8:23 0:9 8:7 0:1 8:7 0:1 8:7 0:1 8:7 0:1 8:7 0:1 8:7 0:1 8:7 0:1 8:7 0:1 10:32 8:24 10:4",
  "8:2 10:19 11:1 13:10 16:7 18:2 19:5 20:5 21:1 23:3 24:11 0:34 4:26 0:1 4:89 0:12 4:214 0:26",
  "4:12 26:4 1:56 4:3 6:3 4:1 1:1 0:1 1:84 6:2 0:2 1:6 6:2 1:94 6:1 0:5 1:40 10:1 19:1 20:1 0:1",
  "1:94 0:1 1:16 4:24 12:3 23:5 8:16 10:20 27:2 0:9 26:1 6:16 1:29 7:2 0:1 1:36 11:12 7:1 6:15",
  "1:28 7:2 8:1 1:50 6:15 1:12 7:4 1:47 22:1 1:119 7:4 1:99 7:2 1:31 7:1 4:6582 23:10 7:64",
  "1:20902 8:22 10:8 11:8 13:1 17:9 19:21 20:5 23:13 24:3 4:1165 0:3 4:18 6:2 4:16 6:1 4:12 6:1",
  "4:3 6:1 4:1 0:9 11:48 10:300 0:20 10:32 12:2 10:18 13:8 10:28 16:6 17:1 13:1 11:88 0:8 8:23",
  "9:4 10:5 9:2 10:107 12:2 17:1 12:2 13:2 16:12 12:10 13:1 16:3 18:1 20:1 16:2 17:6 20:2 21:6",
  "24:2 21:5 23:4 27:3 0:2 24:2 0:1 24:1 0:1 24:5 27:3 0:21 24:3 23:2 16:1 13:2 12:1 10:5 8:44",
  "23:1 0:3 11:10 0:6 9:56 0:8 10:69 18:1 0:8 10:12 0:6 11:28 17:2 20:2 10:84 0:11 10:1 11:29 0:3",
  "11:78 0:1 11:11 0:4 11:2 16:31 0:1 10:55 0:9 10:14 0:2 10:10 0:2 10:4 11:28 16:4 11:67 0:24",
  "11:5 13:23 0:10 12:6 0:2 12:6 0:2 12:6 0:9 12:7 0:1 12:7 0:1 16:48 17:4 16:2 21:2 23:4 0:4",
  "17:80 11:46 0:2 11:10 0:6 2:11172 0:12 11:23 0:4 11:49 0:2052 1:6702 13:2 6:59 11:3 0:2 8:106",
  "0:38 1:7 0:12 1:5 0:5 4:1 1:25 0:1 1:5 0:1 1:1 0:1 1:2 0:1 1:2 0:1 1:108 12:16 24:1 0:16 1:365",
  "24:16 1:64 0:2 1:54 0:7 24:1 5:32 1:12 6:1 7:1 24:2 6:16 8:10 0:6 1:4 10:3 16:7 17:2 1:21 6:2",
  "7:2 1:10 0:1 1:19 0:1 1:4 0:4 1:3 6:1 1:1 0:1 1:135 0:2 1:1 0:1 1:94 6:2 1:94 0:3 1:6 0:2 1:6",
  "0:2 1:6 0:2 1:3 0:3 1:7 0:1 1:7 0:10 4:3 3:1 1:3 7:12 0:1 7:26 0:1 7:19 0:1 7:2 0:1 7:15 0:2",
  "7:14 0:34 7:123 0:5 7:3 0:4 7:45 0:3 7:9 8:75 16:2 18:2 0:1 10:12 23:1 0:3 16:1 0:47 10:46",
  "0:130 10:29 0:3 10:49 0:15 16:28 0:4 5:31 16:1 5:4 0:9 19:3 5:27 0:5 16:43 0:5 7:30 0:1 7:1",
  "8:36 0:4 8:14 0:42 5:38 7:2 5:38 7:80 0:2 7:10 0:6 18:36 0:4 18:36 0:4 16:40 0:8 16:52 0:11",
  "16:1 24:11 0:1 24:15 0:1 24:7 0:1 24:2 0:1 24:11 0:1 24:15 0:1 24:7 0:1 24:2 0:3 27:52 0:12",
  "16:311 0:9 16:22 0:10 16:8 0:24 24:6 0:1 24:42 0:1 24:9 0:69 7:6 0:2 7:1 0:1 7:44 0:1 7:2 0:3",
  "7:1 0:2 7:1 11:22 0:1 11:9 16:63 0:8 16:9 0:48 17:19 0:1 17:2 0:5 17:5 9:26 11:2 0:3 9:1 10:26",
  "0:5 10:1 0:64 13:56 0:4 17:2 13:2 17:16 0:2 17:46 8:4 0:1 8:2 0:5 8:8 0:1 8:3 0:1 8:27 20:2",
  "0:2 8:3 0:4 8:9 20:1 0:7 8:9 0:7 11:32 16:32 0:32 16:39 0:4 16:12 0:9 11:54 0:3 11:29 0:2",
  "11:27 0:5 11:8 16:18 0:7 16:4 0:12 16:7 0:80 11:73 0:55 17:51 0:13 17:51 0:7 17:6 20:40 0:8",
  "20:10 0:6 27:38 0:3 27:29 0:8 27:2 0:208 11:31 0:1 23:42 0:1 23:3 0:2 23:2 0:16 27:3 0:55 27:1",
  "25:3 20:40 0:8 20:42 0:22 24:26 0:38 23:28 0:20 21:23 0:9 12:78 0:4 12:30 24:6 0:9 16:1 11:66",
  "24:1 0:10 20:1 0:2 13:25 0:7 13:10 0:6 13:53 0:1 13:14 20:3 23:1 0:8 16:39 0:9 13:73 17:4 16:1",
  "23:2 13:10 16:1 17:5 0:1 16:20 0:11 16:18 0:1 16:43 18:1 25:3 0:62 17:7 0:1 17:1 0:1 17:4 0:1",
  "17:15 0:1 17:11 0:6 16:59 0:5 16:10 0:6 17:1 16:3 0:1 16:8 0:2 16:2 0:2 16:22 0:1 16:7 0:1",
  "16:2 0:1 16:5 0:1 20:1 16:9 0:2 16:2 0:2 16:3 0:2 17:1 0:6 16:1 0:5 16:7 0:2 16:7 0:3 16:5",
  "0:11 27:10 0:1 27:1 0:2 27:1 0:1 27:38 0:1 27:10 0:1 27:1 0:2 27:1 0:1 27:4 0:1 27:10 0:1 27:2",
  "0:8 27:2 0:29 18:90 23:1 18:1 0:1 18:1 20:1 21:1 23:2 0:30 16:72 0:8 16:10 0:166 16:54 0:2",
  "16:18 17:20 0:34 16:69 0:11 16:10 0:6 18:13 0:19 13:56 21:1 24:1 0:6 13:10 0:6 27:20 0:28",
  "17:26 20:1 0:2 17:15 0:4 17:16 24:7 0:185 20:60 0:100 16:83 0:12 16:1 23:7 0:2 23:1 0:2 23:8",
  "0:1 23:2 0:1 23:30 0:1 23:2 0:2 23:12 0:9 23:10 0:70 21:8 0:2 21:46 0:2 21:11 0:27 19:72 0:8",
  "19:52 21:2 19:23 20:1 19:5 0:13 24:16 16:57 0:7 25:10 0:182 27:34 0:14 27:10 0:6 18:9 0:1",
  "18:45 0:1 18:14 0:10 18:29 0:3 18:32 0:2 18:22 0:1 18:14 0:73 19:7 0:1 19:2 0:1 19:44 0:3 19:1",
  "0:1 19:2 0:1 19:9 0:8 19:10 0:6 20:6 0:1 20:2 0:1 20:37 0:1 20:2 0:1 20:6 0:7 20:10 0:310",
  "20:25 0:7 25:17 0:1 25:41 0:3 25:28 27:1 0:85 23:1 0:15 21:50 0:13 21:1 9:879 16:42 17:1 0:102",
  "9:99 16:12 0:1 9:4 16:1 0:11 17:196 0:2636 24:99 0:13 11:1071 25:1 21:9 25:29 0:10 27:3995 0:5",
  "17:583 0:6841 27:58 0:1734 12:569 0:7 16:31 0:1 16:10 0:4 16:2 24:79 0:1 24:10 0:6 16:30 0:2",
  "16:6 0:10 16:70 0:10 16:10 0:1 16:7 0:1 16:21 0:5 16:19 0:432 27:58 0:198 20:91 0:101 13:69",
  "21:6 0:4 21:1 13:47 21:9 0:7 13:17 0:64 18:1 19:1 21:2 23:1 0:11 23:2 0:14 18:6125 20:5 21:6",
  "0:8 18:755 23:483 0:41 27:1 23:9 0:8935 24:4 0:1 24:7 0:1 24:2 0:1 12:2 19:285 24:4 0:15 25:1",
  "0:29 21:3 0:2 25:1 0:14 21:4 0:8 19:396 0:2308 16:107 0:5 16:13 0:3 16:9 0:7 16:10 0:2 16:8",
  "0:3932 27:250 0:6 27:436 0:76 24:46 0:2 24:23 0:9 24:116 0:60 5:246 0:10 5:39 0:2 10:1 5:180",
  "17:11 24:2 0:21 8:70 0:122 25:20 0:12 20:20 0:12 7:87 0:9 9:18 20:7 0:135 5:85 0:1 5:71 0:1",
  "5:2 0:2 5:1 0:2 5:2 0:2 5:4 0:1 5:12 0:1 5:1 0:1 5:4 7:1 5:2 0:1 5:65 0:1 5:4 0:2 5:8 0:1 5:7",
  "0:1 5:28 0:1 5:4 0:1 5:5 0:1 5:1 0:3 5:7 0:1 5:338 8:2 0:2 5:290 9:2 0:2 5:50 17:652 0:15 17:5",
  "0:1 17:15 0:1104 24:31 0:6 25:6 0:213 18:7 0:1 18:17 0:2 18:7 0:1 18:2 0:1 18:5 0:5 25:62 0:33",
  "25:1 0:112 21:45 0:3 21:14 0:2 21:10 0:4 21:2 0:320 24:31 0:17 21:58 0:5 21:1 0:464 25:42",
  "0:214 27:43 0:4 27:1 0:480 24:7 0:1 24:4 0:1 24:2 0:1 24:15 0:1 16:197 0:2 16:16 0:41 18:75",
  "21:1 0:4 18:10 0:4 18:2 0:785 20:68 0:76 21:61 0:194 13:4 0:1 13:27 0:1 13:2 0:1 13:1 0:2 13:1",
  "0:1 13:10 0:1 13:4 0:1 13:1 0:1 13:1 0:6 13:1 0:4 13:1 0:1 13:1 0:1 13:1 0:1 13:3 0:1 13:2 0:1",
  "13:1 0:2 13:1 0:1 13:1 0:1 13:1 0:1 13:1 0:1 13:1 0:1 13:2 0:1 13:1 0:2 13:4 0:1 13:7 0:1 13:4",
  "0:1 13:4 0:1 13:1 0:1 13:10 0:1 13:17 0:5 13:3 0:1 13:5 0:1 13:17 0:52 13:2 0:270 10:44 0:4",
  "10:100 0:12 12:15 0:2 12:14 16:1 0:1 12:15 0:1 12:15 16:22 0:10 11:11 16:2 23:3 11:31 20:1",
  "12:1 11:1 12:11 11:1 12:1 11:1 12:2 11:1 12:3 11:1 12:3 11:5 12:8 11:1 12:7 11:1 12:10 13:2",
  "21:1 23:3 12:9 11:1 12:1 11:2 12:2 11:1 12:10 11:4 12:2 11:1 12:10 18:18 23:1 0:56 12:26 11:1",
  "12:2 0:13 11:34 12:9 18:1 0:4 11:9 0:7 12:2 0:14 19:6 0:154 12:33 16:12 17:3 12:6 16:1 12:70",
  "16:1 17:2 12:20 16:12 12:37 16:1 12:5 16:4 17:5 16:12 12:17 16:7 17:8 12:63 16:1 12:1 16:1",
  "12:182 16:1 12:4 16:2 17:1 12:62 16:2 13:4 16:7 17:5 12:24 16:18 18:1 16:41 18:1 16:86 12:5",
  "13:1 12:16 13:1 12:3 13:1 12:1 13:1 12:1 13:1 12:1 13:1 12:3 13:1 12:6 13:2 12:4 13:1 12:1",
  "13:2 12:4 13:1 12:12 16:2 17:2 12:11 16:48 12:70 16:10 17:1 18:2 19:2 21:1 23:2 0:4 25:1 24:3",
  "16:13 0:3 16:4 18:3 19:2 20:1 21:1 23:2 0:3 12:116 25:3 0:4 25:5 16:85 20:4 25:1 0:6 21:12 0:4",
  "24:1 0:15 16:12 0:4 16:56 0:8 16:10 0:6 16:40 0:8 16:30 0:2 23:2 27:10 0:4 27:2 0:62 19:12",
  "23:1 21:3 17:9 18:6 19:1 18:8 19:8 18:1 19:2 18:12 21:1 18:12 19:1 20:3 18:15 19:13 20:5 21:1",
  "23:1 20:4 23:2 24:1 20:1 21:1 20:4 17:5 18:13 19:6 20:11 23:2 21:6 23:3 21:2 20:10 21:6 17:1",
  "20:2 21:8 23:1 24:1 21:3 19:23 20:25 21:84 0:12 20:14 0:2 21:4 23:1 25:3 21:3 24:2 0:3 21:3",
  "23:4 25:2 27:1 0:5 27:1 21:6 23:19 24:4 25:3 23:7 24:4 25:3 27:1 25:1 23:3 24:3 27:1 0:7 25:2",
  "23:7 24:3 25:2 27:1 0:2 27:1 24:8 25:1 27:1 0:6 24:7 25:2 0:7 23:147 0:1 23:55 27:37 23:10",
  "0:1028 2:2 5:42711 23:7 24:2 0:32 11:4149 24:4 25:1 0:6 12:222 0:2 17:5762 0:14 19:7473 0:15",
  "26:622 0:2466 5:542 0:1504 2:2 23:4939 0:5 25:4192 0:56398 2:2 0:65534 2:2 0:65534 2:2 0:65534",
  "2:2 0:65534 2:2 0:65534 2:2 0:65534 2:2 0:65534 2:2 0:65534 2:2 0:65534 2:2 0:65534 2:2 0:1",
  "5:1 0:30 5:96 0:128 7:240 0:65038 2:131074"]

end ParticleAutomaton.Unicode
