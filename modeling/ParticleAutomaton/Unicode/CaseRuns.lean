namespace ParticleAutomaton.Unicode

/-- Pairs of letters that differ in case only: the first pair, how many, and the step. -/
def casePairs : List String := [
  "65:97:10:1 76:108:8:2 77:109:3:2 85:117:3:2 192:224:16:2 193:225:2:2 199:231:8:2 217:249:3:2",
  "223:7838:1:1 255:376:1:1 256:257:24:2 306:307:3:2 313:314:8:2 330:331:23:2 377:378:3:2",
  "384:579:1:1 385:595:1:1 386:387:2:2 390:596:1:1 391:392:1:1 393:598:2:1 395:396:1:1",
  "398:477:1:1 399:601:1:1 400:603:1:1 401:402:1:1 403:608:1:1 404:611:1:1 405:502:1:1",
  "406:617:1:1 407:616:1:1 408:409:1:1 410:573:1:1 411:42972:1:1 412:623:1:1 413:626:1:1",
  "414:544:1:1 415:629:1:1 416:417:3:2 422:640:1:1 423:424:1:1 425:643:1:1 428:429:1:1",
  "430:648:1:1 431:432:1:1 433:650:2:1 435:436:2:2 439:658:1:1 440:441:1:1 444:445:1:1",
  "447:503:1:1 461:462:8:2 478:479:9:2 500:501:1:1 504:505:20:2 546:547:9:2 570:11365:1:1",
  "571:572:1:1 574:11366:1:1 575:11390:2:1 577:578:1:1 580:649:1:1 581:652:1:1 582:583:5:2",
  "592:11375:1:1 593:11373:1:1 594:11376:1:1 604:42923:1:1 609:42924:1:1 612:42955:1:1",
  "613:42893:1:1 614:42922:1:1 618:42926:1:1 619:11362:1:1 620:42925:1:1 625:11374:1:1",
  "637:11364:1:1 642:42949:1:1 647:42929:1:1 669:42930:1:1 670:42928:1:1 880:881:2:2 886:887:1:1",
  "891:1021:3:1 895:1011:1:1 902:940:1:1 904:941:3:1 908:972:1:1 910:973:2:1 912:8147:1:1",
  "913:945:2:2 916:948:2:2 919:951:1:1 923:955:3:2 926:958:1:1 932:964:2:1 935:967:2:1",
  "938:970:2:1 944:8163:1:1 975:983:1:1 984:985:12:2 1010:1017:1:1 1015:1016:1:1 1018:1019:1:1",
  "1024:1104:16:1 1040:1072:2:1 1043:1075:7:2 1046:1078:4:2 1056:1088:1:1 1059:1091:7:1",
  "1067:1099:5:1 1120:1121:1:1 1124:1125:15:2 1162:1163:27:2 1216:1231:1:1 1217:1218:7:2",
  "1232:1233:48:2 1329:1377:38:1 4256:11520:38:1 4295:11559:1:1 4301:11565:1:1 4304:7312:43:1",
  "4349:7357:3:1 5024:43888:80:1 5104:5112:6:1 7305:7306:1:1 7545:42877:1:1 7549:11363:1:1",
  "7566:42950:1:1 7680:7681:48:2 7778:7779:26:2 7840:7841:48:2 7936:7944:8:1 7952:7960:6:1",
  "7968:7976:8:1 7984:7992:8:1 8000:8008:6:1 8017:8025:4:2 8032:8040:8:1 8048:8122:2:1",
  "8050:8136:4:1 8054:8154:2:1 8056:8184:2:1 8058:8170:2:1 8060:8186:2:1 8064:8072:8:1",
  "8080:8088:8:1 8096:8104:8:1 8112:8120:2:1 8115:8124:1:1 8131:8140:1:1 8144:8152:2:1",
  "8160:8168:2:1 8165:8172:1:1 8179:8188:1:1 8498:8526:1:1 8544:8560:16:1 8579:8580:1:1",
  "9398:9424:26:1 11264:11312:48:1 11360:11361:1:1 11367:11368:3:2 11378:11379:1:1",
  "11381:11382:1:1 11392:11393:50:2 11499:11500:2:2 11506:11507:1:1 42560:42561:5:2",
  "42572:42573:17:2 42624:42625:14:2 42786:42787:7:2 42802:42803:31:2 42873:42874:2:2",
  "42878:42879:5:2 42891:42892:1:1 42896:42897:2:2 42900:42948:1:1 42902:42903:10:2",
  "42931:43859:1:1 42932:42933:8:2 42951:42952:2:2 42956:42957:1:1 42960:42961:1:1",
  "42966:42967:3:2 42997:42998:1:1 64261:64262:1:1 65313:65345:26:1 66560:66600:40:1",
  "66736:66776:36:1 66928:66967:19:2 66929:66968:5:2 66941:66980:7:2 66957:66996:3:2",
  "66965:67004:1:1 68736:68800:51:1 68944:68976:22:1 71840:71872:32:1 93760:93792:32:1",
  "125184:125218:34:1"]

/-- Classes of three or more letters that differ in case only. -/
def caseClasses : List String := [
  "75:107:8490 83:115:383 181:924:956 197:229:8491 452:453:454 455:456:457 458:459:460",
  "497:498:499 837:921:953:8126 914:946:976 917:949:1013 920:952:977:1012 922:954:1008",
  "928:960:982 929:961:1009 931:962:963 934:966:981 937:969:8486 1042:1074:7296 1044:1076:7297",
  "1054:1086:7298 1057:1089:7299 1058:1090:7300:7301 1066:1098:7302 1122:1123:7303",
  "7304:42570:42571 7776:7777:7835"]

end ParticleAutomaton.Unicode
